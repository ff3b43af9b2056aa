import DpdkPerf.VppTest.Process
import Mathlib.Algebra.Ring.Nat
import Mathlib.Logic.Relation
import Mathlib.Data.List.Nodup

/-! The dispatcher and its processes. A process that waits is three frames
deep in its own stack, and its resume buffer points at the top one. -/
namespace DpdkPerf.VppTest

variable {ι : Type*} [DecidableEq ι] {ticks : Nat → UInt64} {s t u : Sched ι} {p q : ι}

/-- The running functions take any number of steps. -/
def Steps (ticks : Nat → UInt64) : Sched ι → Sched ι → Prop :=
  Relation.ReflTransGen fun s t => s.step ticks = some t

/-- The dispatcher carries out a command, the last of its calls having
returned `r` in the end. -/
def Performs (ticks : Nat → UInt64) (s : Sched ι) (command : Command ι) (r : UInt64)
    (t : Sched ι) : Prop :=
  Steps ticks (s.issue ticks command) t ∧ t.AtMain r

/-- The dispatcher carries out commands one after the other. -/
inductive Runs (ticks : Nat → UInt64) (start : Sched ι) : List (Command ι) → Sched ι → Prop where
  | nil : Runs ticks start [] start
  | snoc {commands : List (Command ι)} {command : Command ι} {s t : Sched ι} {r : UInt64}
      (before : Runs ticks start commands s) (last : Performs ticks s command r t) :
      Runs ticks start (commands ++ [command]) t

/-- The processes started, in order. -/
def started (commands : List (Command ι)) : List ι :=
  commands.filterMap fun
    | .startProcess p => some p
    | _ => none

/-- Each process is started once, and resumed only after that. -/
inductive Legal : List (Command ι) → Prop where
  | nil : Legal []
  | stamp {commands : List (Command ι)} (before : Legal commands) (p : ι) :
      Legal (commands ++ [.stamp p])
  | startProcess {commands : List (Command ι)} (before : Legal commands) {p : ι}
      (new : p ∉ started commands) : Legal (commands ++ [.startProcess p])
  | vlibProcessResume {commands : List (Command ι)} (before : Legal commands) {p : ι}
      (known : p ∈ started commands) : Legal (commands ++ [.vlibProcessResume p])

/-- How often a process has been resumed. -/
def resumes (p : ι) (commands : List (Command ι)) : Nat :=
  commands.count (.vlibProcessResume p)

/-- The stack of a process in its wait. -/
def waitFrames (handle : Handle) (p : ι) (waitId : UInt32) (wakeupTime r : UInt64) :
    List (Frame ι) :=
  [.vlibProcessWait p wakeupTime (.jumped r), .demo handle p waitId .wait,
    .vlibProcessBootstrap p .handle]

/-- The process is suspended in its wait, and its resume buffer leads there. -/
structure Sched.Suspended (s : Sched ι) (p : ι) (handle : Handle) (waitId : UInt32)
    (wakeupTime : UInt64) : Prop where
  frames : s.control.frames (.process p) =
    waitFrames handle p waitId wakeupTime processResumeLongjmpSuspend
  resumeLongjmp : (s.process p).resumeLongjmp = some ⟨.process p, 3, .vlibProcessWait⟩

/-- The `wait_id`s that have been handed out, in the order of `new_id`. -/
def Sched.waitIds (s : Sched ι) : List UInt32 :=
  (s.log.filter fun line => !line.getEvent).map (·.waitId)

/-- Nothing of another process has changed. -/
structure Elsewhere (p : ι) (s t : Sched ι) : Prop where
  frames : ∀ q, q ≠ p → t.control.frames (.process q) = s.control.frames (.process q)
  process : ∀ q, q ≠ p → t.process q = s.process q

omit [DecidableEq ι] in
theorem Elsewhere.trans (h : Elsewhere p s t) (h' : Elsewhere p t u) : Elsewhere p s u where
  frames q hOther := (h'.frames q hOther).trans (h.frames q hOther)
  process q hOther := (h'.process q hOther).trans (h.process q hOther)

namespace Sched

/-- Control is on the stack `id`, which has these frames. -/
def on (s : Sched ι) (id : StackId ι) (frames : List (Frame ι)) : Sched ι :=
  { s with control := ⟨id, Function.update s.control.frames id frames⟩ }

/-- A stack put in place again is the same. -/
theorem on_self {id : StackId ι} {frames : List (Frame ι)} (hCurrent : s.control.current = id)
    (hFrames : s.control.frames id = frames) : s.on id frames = s := by
  subst hCurrent hFrames
  unfold on
  rw [Function.update_eq_self]

@[simp] theorem on_current (id : StackId ι) (frames : List (Frame ι)) :
    (s.on id frames).control.current = id :=
  rfl

@[simp] theorem on_top (id : StackId ι) (frames : List (Frame ι)) :
    (s.on id frames).control.top = frames :=
  Function.update_self ..

@[simp] theorem on_frames (id : StackId ι) (frames : List (Frame ι)) :
    (s.on id frames).control.frames id = frames :=
  Function.update_self ..

theorem on_frames_of_ne {id other : StackId ι} (hOther : other ≠ id) (frames : List (Frame ι)) :
    (s.on id frames).control.frames other = s.control.frames other :=
  Function.update_of_ne hOther ..

@[simp] theorem on_frames_process (frames : List (Frame ι)) :
    (s.on .main frames).control.frames (.process p) = s.control.frames (.process p) :=
  on_frames_of_ne (nofun : StackId.process p ≠ .main) frames

@[simp] theorem on_frames_main (frames : List (Frame ι)) :
    (s.on (.process p) frames).control.frames .main = s.control.frames .main :=
  on_frames_of_ne (nofun : StackId.main ≠ .process p) frames

@[simp] theorem on_process (id : StackId ι) (frames : List (Frame ι)) :
    (s.on id frames).process = s.process :=
  rfl

@[simp] theorem withTop_on (id : StackId ι) (frames frames' : List (Frame ι)) :
    (s.on id frames).withTop frames' = s.on id frames' := by
  unfold withTop Stacks.withTop on
  dsimp only
  rw [Function.update_idem]

@[simp] theorem setProcess_process (process : Process ι) :
    (s.setProcess p process).process p = process :=
  Function.update_self ..

@[simp] theorem setProcess_process_of_ne (hOther : q ≠ p) (process : Process ι) :
    (s.setProcess p process).process q = s.process q :=
  Function.update_of_ne hOther ..

@[simp] theorem setProcess_control (process : Process ι) :
    (s.setProcess p process).control = s.control :=
  rfl

/-- A return from the top of the main stack. -/
theorem AtMain.withTop {r : UInt64} (h : s.AtMain r) (frames : List (Frame ι)) :
    s.withTop frames = s.on .main frames := by
  obtain ⟨⟨current, frames⟩, process, id, readings, log⟩ := s
  obtain rfl : current = .main := h.current
  rfl

/-- A jump to a frame that is still on its stack. -/
theorem longjmp_of_frames {buf : JmpBuf (StackId ι) SetjmpSite} {r : UInt64}
    (above : List (Frame ι)) (frame : Frame ι) {below : List (Frame ι)} {frame' : Frame ι}
    (hFrames : s.control.frames buf.stack = above ++ frame :: below)
    (hDepth : buf.depth = below.length + 1) (hLand : frame.jumped r buf.pc = some frame') :
    s.longjmp (some buf) r = some (s.on buf.stack (frame' :: below)) := by
  unfold longjmp
  rw [Option.bind_some, Stacks.longjmp_of_frames hFrames hDepth hLand]
  rfl

variable {id : StackId ι} {below : List (Frame ι)} {handle : Handle} {waitId : UInt32}
  {wakeupTime : UInt64}

/-- A process draws a new number to wait with. -/
theorem step_newId :
    (s.on id (.demo handle p waitId .newId :: below)).step ticks =
      some (s.newId.on id (.demo handle p s.id .warnWait :: below)) := by
  unfold step
  rw [on_top]
  show some ((s.newId.on id _).withTop _) = _
  rw [withTop_on]
  rfl

theorem step_warnWait :
    (s.on id (.demo handle p waitId .warnWait :: below)).step ticks =
      some ((s.warn p waitId false).on id
        (.vlibProcessWait p 0 .wakeupTime :: .demo handle p waitId .wait :: below)) := by
  unfold step
  rw [on_top]
  show some (((s.warn p waitId false).on id _).withTop _) = _
  rw [withTop_on]

/-- After the wait it prints the number again and goes round. -/
theorem step_warnGet :
    (s.on id (.demo handle p waitId .warnGet :: below)).step ticks =
      some ((s.warn p waitId true).on id (.demo handle p waitId .newId :: below)) := by
  unfold step
  rw [on_top]
  show some (((s.warn p waitId true).on id _).withTop _) = _
  rw [withTop_on]

/-- The clock is read before the process suspends. -/
theorem step_wakeupTime :
    (s.on id (.vlibProcessWait p wakeupTime .wakeupTime :: below)).step ticks =
      some (s.readClock.on id (.vlibProcessWait p (ticks s.readings) .setjmp :: below)) := by
  unfold step
  rw [on_top]
  show some ((s.readClock.on id _).withTop _) = _
  rw [withTop_on]
  rfl

/-- The wait notes where to resume, and goes on to suspend. -/
theorem step_wait_setjmp :
    (s.on id (.vlibProcessWait p wakeupTime .setjmp :: below)).step ticks =
      some ((s.setProcess p { s.process p with
          resumeLongjmp := some ⟨id, below.length + 1, .vlibProcessWait⟩ }).on id
        (.vlibProcessWait p wakeupTime (.jumped processResumeLongjmpSuspend) :: below)) := by
  unfold step
  rw [on_top]
  show some (((s.setProcess p { s.process p with
    resumeLongjmp := some ((s.on id _).control.setjmp .vlibProcessWait) }).on id _).withTop _) = _
  rw [withTop_on, Stacks.setjmp, on_top, on_current, List.length_cons]

theorem step_wait_suspend :
    (s.on id (.vlibProcessWait p wakeupTime (.jumped processResumeLongjmpSuspend) :: below)).step
        ticks =
      (s.on id (.vlibProcessWait p wakeupTime (.jumped processResumeLongjmpSuspend) ::
        below)).longjmp (s.process p).returnLongjmp processReturnLongjmpSuspend := by
  unfold step
  rw [on_top]
  show vlibProcessWait ticks (s.on id _) p wakeupTime below (.jumped _) = _
  unfold vlibProcessWait
  exact if_pos rfl

/-- A wait that `vlib_process_resume` has woken up. -/
theorem step_wait_resumed :
    (s.on id (.vlibProcessWait p wakeupTime (.jumped processResumeLongjmpResume) :: below)).step
        ticks =
      some (s.on id
        (.vlibProcessWait p wakeupTime (.ret (wakeupTime - (s.process p).lastTimeStamp)) ::
          below)) := by
  unfold step
  rw [on_top]
  show vlibProcessWait ticks (s.on id _) p wakeupTime below (.jumped _) = _
  unfold vlibProcessWait
  dsimp only
  rw [if_neg (by decide), withTop_on, on_process]

/-- A wait that returns returns to the body of the process. -/
theorem step_wait_ret {value : UInt64} :
    (s.on id (.vlibProcessWait p wakeupTime (.ret value) :: .demo handle p waitId .wait ::
        below)).step ticks =
      some (s.on id (.demo handle p waitId .warnGet :: below)) := by
  unfold step
  rw [on_top]
  show some ((s.on id _).withTop _) = _
  rw [withTop_on]

/-- The first call on a new stack is the body of the process. -/
theorem step_bootstrap :
    (s.on id (.vlibProcessBootstrap p .start :: below)).step ticks =
      some (s.on id (.demo (s.process p).handle p 0 .newId ::
        .vlibProcessBootstrap p .handle :: below)) := by
  unfold step
  rw [on_top]
  show some ((s.on id _).withTop _) = _
  rw [withTop_on, on_process]

/-- A resume notes where to come back to. -/
theorem step_resume_setjmp :
    (s.on id (.vlibProcessResume p .setjmp :: below)).step ticks =
      some ((s.setProcess p { s.process p with
          returnLongjmp := some ⟨id, below.length + 1, .vlibProcessResume⟩ }).on id
        (.vlibProcessResume p (.jumped processReturnLongjmpReturn) :: below)) := by
  unfold step
  rw [on_top]
  show some (((s.setProcess p { s.process p with
    returnLongjmp := some ((s.on id _).control.setjmp .vlibProcessResume) }).on id _).withTop _) = _
  rw [withTop_on, Stacks.setjmp, on_top, on_current, List.length_cons]

theorem step_resume_longjmp :
    (s.on id (.vlibProcessResume p (.jumped processReturnLongjmpReturn) :: below)).step ticks =
      (s.on id (.vlibProcessResume p (.jumped processReturnLongjmpReturn) :: below)).longjmp
        (s.process p).resumeLongjmp processResumeLongjmpResume := by
  unfold step
  rw [on_top]
  show vlibProcessResume (s.on id _) p below (.jumped _) = _
  unfold vlibProcessResume
  exact if_pos rfl

/-- When it comes back the process is suspended, and this is counted. -/
theorem step_resume_suspended :
    (s.on id (.vlibProcessResume p (.jumped processReturnLongjmpSuspend) :: below)).step ticks =
      some ((s.countSuspend p).on id
        (.vlibProcessResume p (.ret processReturnLongjmpSuspend) :: below)) := by
  unfold step
  rw [on_top]
  show vlibProcessResume (s.on id _) p below (.jumped _) = _
  unfold vlibProcessResume
  dsimp only
  rw [if_neg (by decide), if_pos rfl]
  show some (((s.countSuspend p).on id _).withTop _) = _
  rw [withTop_on]

/-- The resume returns to `main`. -/
theorem step_resume_ret {value : UInt64} :
    (s.on id [.vlibProcessResume p (.ret value), .main none]).step ticks =
      some (s.on id [.main (some value)]) := by
  unfold step
  rw [on_top]
  show some ((s.on id _).withTop _) = _
  rw [withTop_on]

/-- A start notes where to come back to. -/
theorem step_start_setjmp :
    (s.on id (.startProcess p .setjmp :: below)).step ticks =
      some ((s.setProcess p { s.process p with
          returnLongjmp := some ⟨id, below.length + 1, .startProcess⟩ }).on id
        (.startProcess p (.jumped processReturnLongjmpReturn) :: below)) := by
  unfold step
  rw [on_top]
  show some (((s.setProcess p { s.process p with
    returnLongjmp := some ((s.on id _).control.setjmp .startProcess) }).on id _).withTop _) = _
  rw [withTop_on, Stacks.setjmp, on_top, on_current, List.length_cons]

theorem step_start_calljmp :
    (s.on id (.startProcess p (.jumped processReturnLongjmpReturn) :: below)).step ticks =
      some ((s.on id (.startProcess p .calljmp :: below)).on (.process p)
        [.vlibProcessBootstrap p .start]) := by
  unfold step
  rw [on_top]
  show startProcess (s.on id _) p below (.jumped _) = _
  unfold startProcess
  dsimp only
  rw [if_pos rfl, withTop_on]
  rfl

/-- When it comes back the process is suspended for the first time. -/
theorem step_start_suspended :
    (s.on id (.startProcess p (.jumped processReturnLongjmpSuspend) :: below)).step ticks =
      some ((s.countSuspend p).on id
        (.startProcess p (.ret (s.process p).lastTimeStamp) :: below)) := by
  unfold step
  rw [on_top]
  show startProcess (s.on id _) p below (.jumped _) = _
  unfold startProcess
  dsimp only
  rw [if_neg (by decide), if_pos rfl]
  show some (((s.countSuspend p).on id _).withTop _) = _
  rw [withTop_on]
  unfold countSuspend
  rw [on_process, setProcess_process]

/-- The start returns to `main`. -/
theorem step_start_ret {value : UInt64} :
    (s.on id [.startProcess p (.ret value), .main none]).step ticks =
      some (s.on id [.main (some value)]) := by
  unfold step
  rw [on_top]
  show some ((s.on id _).withTop _) = _
  rw [withTop_on]

end Sched

/-- What it leaves behind when a handler has run to its next wait and control
is back on the main stack, where the caller's frame is now `caller`. -/
structure Switched (ticks : Nat → UInt64) (p : ι) (handle : Handle) (caller : Frame ι)
    (s t : Sched ι) : Prop where
  current : t.control.current = .main
  main : t.control.frames .main = [caller, .main none]
  suspended : t.Suspended p handle s.id (ticks s.readings)
  nSuspends : (t.process p).nSuspends = (s.process p).nSuspends
  lastTimeStamp : (t.process p).lastTimeStamp = (s.process p).lastTimeStamp
  id : t.id = s.id + 1
  readings : t.readings = s.readings + 1
  log : t.log = s.log ++ [⟨(s.process p).id, s.id, (s.process p).nSuspends, false⟩]
  elsewhere : Elsewhere p s t

/-- From the head of its loop a handler runs to its next wait, and from there
control goes where the return buffer leads. -/
theorem switched_of_newId (handle : Handle) (waitId : UInt32) {site : SetjmpSite}
    {caller caller' : Frame ι} (hMain : s.control.frames .main = [caller, .main none])
    (hBuf : (s.process p).returnLongjmp = some ⟨.main, 2, site⟩)
    (hLand : caller.jumped processReturnLongjmpSuspend site = some caller') :
    ∃ t, Steps ticks (s.on (.process p)
        [.demo handle p waitId .newId, .vlibProcessBootstrap p .handle]) t ∧
      Switched ticks p handle caller' s t := by
  let printed := (s.newId.warn p s.id false).readClock
  let waiting := printed.setProcess p { s.process p with
    resumeLongjmp := some ⟨.process p, 3, .vlibProcessWait⟩ }
  let frames := waitFrames handle p s.id (ticks s.readings) processResumeLongjmpSuspend
  have hJump : (waiting.on (.process p) frames).longjmp (waiting.process p).returnLongjmp
      processReturnLongjmpSuspend =
        some ((waiting.on (.process p) frames).on .main [caller', .main none]) := by
    have hReturn : (waiting.process p).returnLongjmp = some ⟨.main, 2, site⟩ := by
      rw [Sched.setProcess_process]
      exact hBuf
    rw [hReturn]
    refine Sched.longjmp_of_frames [] caller ?_ rfl hLand
    rw [Sched.on_frames_main]
    exact hMain
  refine ⟨(waiting.on (.process p) frames).on .main [caller', .main none], ?_, ?_⟩
  · exact .head Sched.step_newId <| .head Sched.step_warnWait <| .head Sched.step_wakeupTime <|
      .head Sched.step_wait_setjmp <| .head (Sched.step_wait_suspend.trans hJump) .refl
  · constructor
    · rfl
    · exact Sched.on_frames ..
    · constructor
      · rw [Sched.on_frames_process, Sched.on_frames]
      · show (waiting.process p).resumeLongjmp = _
        rw [Sched.setProcess_process]
    · show (waiting.process p).nSuspends = _
      rw [Sched.setProcess_process]
    · show (waiting.process p).lastTimeStamp = _
      rw [Sched.setProcess_process]
    · rfl
    · rfl
    · rfl
    · constructor
      · intro q hOther
        have hStack : StackId.process q ≠ .process p := fun h => hOther (StackId.process.inj h)
        rw [Sched.on_frames_process, Sched.on_frames_of_ne hStack]
        rfl
      · exact fun q hOther => Sched.setProcess_process_of_ne hOther _

/-- What a call of `start_process` or `vlib_process_resume` leaves behind when
it has returned `r`: its process is in its next wait, with a `wait_id` from
`new_id`, and has printed these lines. -/
structure Called (ticks : Nat → UInt64) (p : ι) (handle : Handle) (r : UInt64)
    (printed : List Warning) (s t : Sched ι) : Prop where
  atMain : t.AtMain r
  suspended : t.Suspended p handle s.id (ticks s.readings)
  nSuspends : (t.process p).nSuspends = (s.process p).nSuspends + 1
  lastTimeStamp : (t.process p).lastTimeStamp = (s.process p).lastTimeStamp
  id : t.id = s.id + 1
  readings : t.readings = s.readings + 1
  log : t.log = s.log ++ printed
  elsewhere : Elsewhere p s t

/-- The line a process prints before a wait or after it. -/
def line (s : Sched ι) (p : ι) (waitId : UInt32) (getEvent : Bool) : Warning :=
  ⟨(s.process p).id, waitId, (s.process p).nSuspends, getEvent⟩

/-- The suspend is counted, and the call returns. -/
theorem Switched.called {handle : Handle} {caller : Frame ι}
    (h : Switched ticks p handle caller s t) (r : UInt64) :
    Called ticks p handle r [line s p s.id false] s
      ((t.countSuspend p).on .main [.main (some r)]) := by
  constructor
  · exact ⟨rfl, Sched.on_frames ..⟩
  · constructor
    · rw [Sched.on_frames_process]
      exact h.suspended.frames
    · show ((t.countSuspend p).process p).resumeLongjmp = _
      unfold Sched.countSuspend
      rw [Sched.setProcess_process]
      exact h.suspended.resumeLongjmp
  · show ((t.countSuspend p).process p).nSuspends = _
    unfold Sched.countSuspend
    rw [Sched.setProcess_process, ← h.nSuspends]
  · show ((t.countSuspend p).process p).lastTimeStamp = _
    unfold Sched.countSuspend
    rw [Sched.setProcess_process, ← h.lastTimeStamp]
  · exact h.id
  · exact h.readings
  · exact h.log
  · refine h.elsewhere.trans ⟨fun q _ => Sched.on_frames_process _, fun q hOther => ?_⟩
    exact Sched.setProcess_process_of_ne hOther _

omit [DecidableEq ι] in
/-- The state a call starts from, up to the return buffer it fills in and the
lines it has printed so far. -/
theorem Called.of_entered {handle : Handle} {r : UInt64} {earlier printed : List Warning}
    {entered : Sched ι} (h : Called ticks p handle r printed entered t) (hId : entered.id = s.id)
    (hReadings : entered.readings = s.readings)
    (hCount : (entered.process p).nSuspends = (s.process p).nSuspends)
    (hStamp : (entered.process p).lastTimeStamp = (s.process p).lastTimeStamp)
    (hLog : entered.log = s.log ++ earlier) (hElsewhere : Elsewhere p s entered) :
    Called ticks p handle r (earlier ++ printed) s t where
  atMain := h.atMain
  suspended := hId ▸ hReadings ▸ h.suspended
  nSuspends := by rw [h.nSuspends, hCount]
  lastTimeStamp := by rw [h.lastTimeStamp, hStamp]
  id := by rw [h.id, hId]
  readings := by rw [h.readings, hReadings]
  log := by rw [h.log, hLog, List.append_assoc]
  elsewhere := hElsewhere.trans h.elsewhere

theorem elsewhere_setProcess (process : Process ι) : Elsewhere p s (s.setProcess p process) where
  frames _ _ := rfl
  process _ hOther := Sched.setProcess_process_of_ne hOther process

/-- The stack of the dispatcher is in the jump of `vlib_process_resume`. -/
def Sched.resuming (s : Sched ι) (p : ι) : Sched ι :=
  (s.setProcess p { s.process p with
    returnLongjmp := some ⟨.main, 2, .vlibProcessResume⟩ }).on .main
      [.vlibProcessResume p (.jumped processReturnLongjmpReturn), .main none]

theorem Sched.resuming_process :
    (s.resuming p).process p = { s.process p with
      returnLongjmp := some ⟨.main, 2, .vlibProcessResume⟩ } :=
  Sched.setProcess_process _

/-- The jump, after which the process wakes up. -/
theorem issue_resume {r : UInt64} (hMain : s.AtMain r) :
    (s.issue ticks (.vlibProcessResume p)).step ticks = some (s.resuming p) := by
  have hBegin : s.issue ticks (.vlibProcessResume p) =
      s.on .main [.vlibProcessResume p .setjmp, .main none] := hMain.withTop _
  rw [hBegin]
  exact Sched.step_resume_setjmp

/-- A suspended process is resumed in its wait. -/
theorem step_resuming {handle : Handle} {waitId : UInt32} {wakeupTime : UInt64}
    (hSuspended : s.Suspended p handle waitId wakeupTime) :
    (s.resuming p).step ticks = some ((s.resuming p).on (.process p)
      (waitFrames handle p waitId wakeupTime processResumeLongjmpResume)) := by
  refine Sched.step_resume_longjmp.trans ?_
  rw [Sched.setProcess_process, hSuspended.resumeLongjmp]
  refine Sched.longjmp_of_frames []
    (.vlibProcessWait p wakeupTime (.jumped processResumeLongjmpSuspend)) ?_ rfl rfl
  rw [Sched.on_frames_process]
  exact hSuspended.frames

/-- `vlib_process_resume` wakes the process in the wait it is suspended in,
and returns when the process is in its next one. -/
theorem resume_called (ticks : Nat → UInt64) {handle : Handle} {waitId : UInt32} {wakeupTime r : UInt64}
    (hMain : s.AtMain r) (hSuspended : s.Suspended p handle waitId wakeupTime) :
    ∃ u t, Steps ticks (s.issue ticks (.vlibProcessResume p)) u ∧
      u.control.current = .process p ∧
      u.control.frames (.process p) =
        waitFrames handle p waitId wakeupTime processResumeLongjmpResume ∧
      Steps ticks u t ∧
      Called ticks p handle processReturnLongjmpSuspend [line s p waitId true, line s p s.id false]
        s t := by
  let caller := s.resuming p
  let printed := caller.warn p waitId true
  have hRecord : printed.process p = { s.process p with
      returnLongjmp := some ⟨.main, 2, .vlibProcessResume⟩ } := Sched.resuming_process
  have hPrintedBuf : (printed.process p).returnLongjmp = some ⟨.main, 2, .vlibProcessResume⟩ := by
    rw [hRecord]
  have hLand : (Frame.vlibProcessResume p (.jumped processReturnLongjmpReturn)).jumped
      processReturnLongjmpSuspend .vlibProcessResume =
        some (Frame.vlibProcessResume p (.jumped processReturnLongjmpSuspend)) := rfl
  obtain ⟨t, hSteps, hSwitched⟩ : ∃ t, Steps ticks _ t ∧ Switched ticks p handle _ printed t :=
    switched_of_newId handle waitId (Sched.on_frames ..) hPrintedBuf hLand
  refine ⟨caller.on (.process p) (waitFrames handle p waitId wakeupTime processResumeLongjmpResume),
    (t.countSuspend p).on .main [.main (some processReturnLongjmpSuspend)], ?_, rfl,
    Sched.on_frames .., ?_, ?_⟩
  · exact .head (issue_resume hMain) <| .head (step_resuming hSuspended) .refl
  · have hReturn : Steps ticks (t.on .main
        [.vlibProcessResume p (.jumped processReturnLongjmpSuspend), .main none])
        ((t.countSuspend p).on .main [.main (some processReturnLongjmpSuspend)]) :=
      .head Sched.step_resume_suspended <| .head Sched.step_resume_ret .refl
    rw [Sched.on_self hSwitched.current hSwitched.main] at hReturn
    exact .head Sched.step_wait_resumed <| .head Sched.step_wait_ret <|
      .head Sched.step_warnGet <| .trans hSteps hReturn
  · have hLine : line printed p printed.id false = line s p s.id false := by
      unfold line
      rw [hRecord]
      rfl
    have hEarlier : printed.log = s.log ++ [line s p waitId true] := by
      show s.log ++ [line caller p waitId true] = _
      unfold line
      rw [show caller.process p = printed.process p from rfl, hRecord]
    have hElsewhere : Elsewhere p s printed :=
      (elsewhere_setProcess _).trans ⟨fun q _ => Sched.on_frames_process _, fun _ _ => rfl⟩
    have hCalled := hSwitched.called processReturnLongjmpSuspend
    rw [hLine] at hCalled
    exact hCalled.of_entered (s := s) rfl rfl (by rw [hRecord]) (by rw [hRecord]) hEarlier
      hElsewhere

/-- `start_process` runs the handler from its start to its first wait. -/
theorem start_called (ticks : Nat → UInt64) (p : ι) {r : UInt64} (hMain : s.AtMain r) :
    ∃ t, Steps ticks (s.issue ticks (.startProcess p)) t ∧
      Called ticks p (s.process p).handle (s.process p).lastTimeStamp [line s p s.id false] s t := by
  let entered := s.setProcess p { s.process p with
    returnLongjmp := some ⟨.main, 2, .startProcess⟩ }
  let caller := entered.on .main [.startProcess p .calljmp, .main none]
  have hBegin : s.issue ticks (.startProcess p) =
      s.on .main [.startProcess p .setjmp, .main none] := hMain.withTop _
  have hRecord : caller.process p = { s.process p with
      returnLongjmp := some ⟨.main, 2, .startProcess⟩ } := Sched.setProcess_process _
  have hBuf : (caller.process p).returnLongjmp = some ⟨.main, 2, .startProcess⟩ := by
    rw [hRecord]
  have hLand : (Frame.startProcess p .calljmp).jumped processReturnLongjmpSuspend .startProcess =
      some (Frame.startProcess p (.jumped processReturnLongjmpSuspend)) := rfl
  obtain ⟨t, hSteps, hSwitched⟩ :
      ∃ t, Steps ticks _ t ∧ Switched ticks p (s.process p).handle _ caller t :=
    switched_of_newId (s.process p).handle 0 (Sched.on_frames ..) hBuf hLand
  have hHandle : (caller.process p).handle = (s.process p).handle := by rw [hRecord]
  have hStamp : (t.process p).lastTimeStamp = (s.process p).lastTimeStamp := by
    rw [hSwitched.lastTimeStamp, hRecord]
  refine ⟨(t.countSuspend p).on .main [.main (some (s.process p).lastTimeStamp)], ?_, ?_⟩
  · rw [hBegin]
    refine .head Sched.step_start_setjmp <| .head Sched.step_start_calljmp <|
      .head Sched.step_bootstrap ?_
    rw [← hHandle] at hSteps
    have hReturn : Steps ticks
        (t.on .main [.startProcess p (.jumped processReturnLongjmpSuspend), .main none])
        ((t.countSuspend p).on .main [.main (some (t.process p).lastTimeStamp)]) :=
      .head Sched.step_start_suspended <| .head Sched.step_start_ret .refl
    rw [Sched.on_self hSwitched.current hSwitched.main, hStamp] at hReturn
    exact .trans hSteps hReturn
  · have hLine : line caller p caller.id false = line s p s.id false := by
      unfold line
      rw [hRecord]
      rfl
    have hElsewhere : Elsewhere p s caller :=
      (elsewhere_setProcess _).trans ⟨fun q _ => Sched.on_frames_process _, fun _ _ => rfl⟩
    have hCalled := hSwitched.called (s.process p).lastTimeStamp
    rw [hLine] at hCalled
    exact hCalled.of_entered (s := s) rfl rfl (by rw [hRecord]) (by rw [hRecord])
      (List.append_nil s.log).symm hElsewhere

/-! Runs of the dispatcher. -/

theorem Sched.AtMain.step {r : UInt64} (h : s.AtMain r) : s.step ticks = none := by
  unfold Sched.step Stacks.top
  rw [h.current, h.frames]

/-- A command has one outcome. -/
theorem Performs.unique {command : Command ι} {r r' : UInt64} (h : Performs ticks s command r t)
    (h' : Performs ticks s command r' u) : r = r' ∧ t = u := by
  have hFinal : t = u := by
    have hDeterministic : Relator.RightUnique fun s t : Sched ι => s.step ticks = some t := by
      intro s t u hFirst hSecond
      exact Option.some.inj (hFirst.symm.trans hSecond)
    rcases Relation.ReflTransGen.total_of_right_unique hDeterministic h.1 h'.1 with hMore | hMore
    · rcases Relation.ReflTransGen.cases_head hMore with hEq | ⟨v, hStep, -⟩
      · exact hEq
      · rw [h.2.step] at hStep
        cases hStep
    · rcases Relation.ReflTransGen.cases_head hMore with hEq | ⟨v, hStep, -⟩
      · exact hEq.symm
      · rw [h'.2.step] at hStep
        cases hStep
  subst hFinal
  have hFrames := h.2.frames.symm.trans h'.2.frames
  simp only [List.cons.injEq, Frame.main.injEq, Option.some.injEq, and_true] at hFrames
  exact ⟨hFrames, rfl⟩

/-- Commands have one outcome. -/
theorem Runs.unique {commands : List (Command ι)} (h : Runs ticks s commands t)
    (h' : Runs ticks s commands u) : t = u := by
  induction h generalizing u with
  | nil =>
      generalize hCommands : ([] : List (Command ι)) = commands at h'
      cases h' with
      | nil => rfl
      | snoc before last => simp at hCommands
  | @snoc commands command v w r before last ih =>
      generalize hCommands : commands ++ [command] = all at h'
      cases h' with
      | nil => simp at hCommands
      | snoc before' last' =>
          obtain ⟨rfl, hCommand⟩ := List.append_inj' hCommands rfl
          obtain rfl := List.cons.inj hCommand |>.1
          obtain rfl := ih before'
          exact (last.unique last').2

/-- How many calls there were. -/
def calls (commands : List (Command ι)) : Nat :=
  commands.countP fun
    | .stamp _ => false
    | _ => true

/-- After any commands the processes that are started wait, each having been
suspended once for its start and once for every resume, and `new_id` has
counted the calls. -/
structure Sched.Dispatched (commands : List (Command ι)) (s : Sched ι) : Prop where
  atMain : ∃ r, s.AtMain r
  suspended : ∀ p ∈ started commands, ∃ handle waitId wakeupTime,
    s.Suspended p handle waitId wakeupTime
  unstarted : ∀ p, p ∉ started commands →
    (s.process p).nSuspends = 0 ∧ resumes p commands = 0
  nSuspends : ∀ p ∈ started commands,
    (s.process p).nSuspends = UInt64.ofNat (1 + resumes p commands)
  id : s.id = UInt32.ofNat (calls commands)
  waitIds : s.waitIds = (List.range (calls commands)).map UInt32.ofNat

/-- Nothing is started at first. -/
theorem dispatched_initial (id : ι → UInt8) (handle : ι → Handle) :
    (Sched.initial id handle).Dispatched [] where
  atMain := ⟨0, rfl, by simp [Sched.initial]⟩
  suspended _ hMem := absurd hMem List.not_mem_nil
  unstarted _ _ := ⟨rfl, rfl⟩
  nSuspends _ hMem := absurd hMem List.not_mem_nil
  id := rfl
  waitIds := rfl

variable {commands : List (Command ι)}

omit [DecidableEq ι] in
@[simp] theorem started_append (first second : List (Command ι)) :
    started (first ++ second) = started first ++ started second :=
  List.filterMap_append

@[simp] theorem resumes_append (first second : List (Command ι)) :
    resumes p (first ++ second) = resumes p first + resumes p second :=
  List.count_append

omit [DecidableEq ι] in
@[simp] theorem calls_append (first second : List (Command ι)) :
    calls (first ++ second) = calls first + calls second :=
  List.countP_append

theorem resumes_singleton_of_ne {command : Command ι} (h : command ≠ .vlibProcessResume p) :
    resumes p [command] = 0 :=
  List.count_eq_zero.mpr fun hMem => h (List.mem_singleton.mp hMem).symm

@[simp] theorem resumes_stamp : resumes q [.stamp p] = 0 := resumes_singleton_of_ne nofun

@[simp] theorem resumes_startProcess : resumes q [.startProcess p] = 0 :=
  resumes_singleton_of_ne nofun

/-- The parts of the invariant that a call keeps whatever its process. -/
theorem Called.dispatched {handle : Handle} {r : UInt64} {printed : List Warning}
    {command : Command ι} (h : s.Dispatched commands) (hCalled : Called ticks p handle r printed s t)
    (hCall : calls [command] = 1)
    (hOther : ∀ q, q ≠ p → (q ∈ started [command] ↔ False) ∧ resumes q [command] = 0)
    (hStarted : p ∈ started (commands ++ [command]))
    (hCount : (s.process p).nSuspends + 1 = UInt64.ofNat (1 + resumes p (commands ++ [command])))
    (hPrinted : ((printed.filter fun line => !line.getEvent).map (·.waitId)) = [s.id]) :
    t.Dispatched (commands ++ [command]) where
  atMain := ⟨r, hCalled.atMain⟩
  suspended q hMem := by
    by_cases hSelf : q = p
    · subst hSelf
      exact ⟨handle, _, _, hCalled.suspended⟩
    · rw [started_append, List.mem_append, (hOther q hSelf).1, or_false] at hMem
      obtain ⟨handle, waitId, wakeupTime, hFrames, hBuf⟩ := h.suspended q hMem
      refine ⟨handle, waitId, wakeupTime, ?_, ?_⟩
      · rw [hCalled.elsewhere.frames q hSelf, hFrames]
      · rw [hCalled.elsewhere.process q hSelf, hBuf]
  unstarted q hNew := by
    have hSelf : q ≠ p := by
      rintro rfl
      exact hNew hStarted
    rw [hCalled.elsewhere.process q hSelf, resumes_append, (hOther q hSelf).2]
    exact h.unstarted q fun hMem => hNew (by simp [hMem])
  nSuspends q hMem := by
    by_cases hSelf : q = p
    · subst hSelf
      rw [hCalled.nSuspends, hCount]
    · rw [started_append, List.mem_append, (hOther q hSelf).1, or_false] at hMem
      rw [hCalled.elsewhere.process q hSelf, resumes_append, (hOther q hSelf).2]
      exact h.nSuspends q hMem
  id := by
    rw [hCalled.id, h.id, calls_append, hCall, UInt32.ofNat_add]
    rfl
  waitIds := by
    have hLog : t.waitIds = s.waitIds ++ [s.id] := by
      unfold Sched.waitIds
      rw [hCalled.log, List.filter_append, List.map_append, hPrinted]
    rw [hLog, h.waitIds, h.id, calls_append, hCall, List.range_succ, List.map_append,
      List.map_singleton]

/-- A time stamp runs no process. -/
theorem Sched.Dispatched.stamp (h : s.Dispatched commands) (p : ι) :
    (s.issue ticks (.stamp p)).Dispatched (commands ++ [.stamp p]) := by
  have hRecord : ∀ q, ((s.issue ticks (.stamp p)).process q).nSuspends = (s.process q).nSuspends ∧
      ((s.issue ticks (.stamp p)).process q).resumeLongjmp = (s.process q).resumeLongjmp := by
    intro q
    unfold Sched.issue
    by_cases hSelf : q = p
    · subst hSelf
      rw [Sched.setProcess_process]
      exact ⟨rfl, rfl⟩
    · rw [Sched.setProcess_process_of_ne hSelf]
      exact ⟨rfl, rfl⟩
  have hStarted : started (commands ++ [.stamp p]) = started commands := by
    rw [started_append]
    exact List.append_nil _
  have hResumes : ∀ q, resumes q (commands ++ [.stamp p]) = resumes q commands := by
    intro q
    rw [resumes_append, resumes_stamp, Nat.add_zero]
  have hCalls : calls (commands ++ [.stamp p]) = calls commands := by
    rw [calls_append]
    rfl
  constructor
  · obtain ⟨r, hCurrent, hFrames⟩ := h.atMain
    exact ⟨r, hCurrent, hFrames⟩
  · intro q hMem
    rw [hStarted] at hMem
    obtain ⟨handle, waitId, wakeupTime, hFrames, hBuf⟩ := h.suspended q hMem
    exact ⟨handle, waitId, wakeupTime, hFrames, (hRecord q).2.trans hBuf⟩
  · intro q hNew
    rw [hStarted] at hNew
    rw [(hRecord q).1, hResumes]
    exact h.unstarted q hNew
  · intro q hMem
    rw [hStarted] at hMem
    rw [(hRecord q).1, hResumes]
    exact h.nSuspends q hMem
  · rw [hCalls]
    exact h.id
  · rw [hCalls]
    exact h.waitIds

/-- The dispatcher's commands are all carried out, and each leaves its
process suspended. -/
theorem dispatched_run (ticks : Nat → UInt64) (id : ι → UInt8) (handle : ι → Handle)
    (hLegal : Legal commands) :
    ∃ s, Runs ticks (.initial id handle) commands s ∧ s.Dispatched commands := by
  induction hLegal with
  | nil => exact ⟨_, .nil, dispatched_initial id handle⟩
  | stamp before p ih =>
      obtain ⟨s, hRuns, h⟩ := ih
      obtain ⟨r, hMain⟩ := h.atMain
      have hStamp : (s.issue ticks (.stamp p)).AtMain r := ⟨hMain.current, hMain.frames⟩
      exact ⟨_, .snoc hRuns ⟨.refl, hStamp⟩, h.stamp p⟩
  | @startProcess commands before p new ih =>
      obtain ⟨s, hRuns, h⟩ := ih
      obtain ⟨r, hMain⟩ := h.atMain
      obtain ⟨t, hSteps, hCalled⟩ := start_called ticks p hMain
      obtain ⟨hZero, hNever⟩ := h.unstarted p new
      refine ⟨t, .snoc hRuns ⟨hSteps, hCalled.atMain⟩, hCalled.dispatched h rfl ?_ ?_ ?_ rfl⟩
      · exact fun q hOther => ⟨by simpa [started] using hOther, resumes_startProcess⟩
      · simp [started]
      · rw [hZero, resumes_append, hNever, resumes_startProcess]
        rfl
  | @vlibProcessResume commands before p known ih =>
      obtain ⟨s, hRuns, h⟩ := ih
      obtain ⟨r, hMain⟩ := h.atMain
      obtain ⟨handle, waitId, wakeupTime, hSuspended⟩ := h.suspended p known
      obtain ⟨u, t, hWake, -, -, hSteps, hCalled⟩ :=
        resume_called ticks hMain hSuspended
      refine ⟨t, .snoc hRuns ⟨hWake.trans hSteps, hCalled.atMain⟩,
        hCalled.dispatched h rfl ?_ ?_ ?_ rfl⟩
      · refine fun q hOther => ⟨by simp [started], resumes_singleton_of_ne fun hSame => ?_⟩
        exact hOther (Command.vlibProcessResume.inj hSame).symm
      · rw [started_append]
        exact List.mem_append_left _ known
      · have hOnce : resumes p [.vlibProcessResume p] = 1 := by simp [resumes]
        rw [h.nSuspends p known, resumes_append, hOnce, ← Nat.add_assoc]
        exact (UInt64.ofNat_add _ 1).symm

/-- `new_id` hands out distinct values until it wraps. -/
theorem nodup_waitIds {n : Nat} (h : n ≤ 2 ^ 32) : ((List.range n).map UInt32.ofNat).Nodup := by
  refine List.Nodup.map_on ?_ List.nodup_range
  intro i hi j hj hSame
  rw [List.mem_range] at hi hj
  have hNat := congrArg UInt32.toNat hSame
  have hSize : UInt32.size = 2 ^ 32 := rfl
  rwa [UInt32.toNat_ofNat_of_lt' (by omega), UInt32.toNat_ofNat_of_lt' (by omega)] at hNat

/-- Whatever the dispatcher has done, all of its processes wait. Each has been
suspended once more than resumed, and a resume of any one of them returns
SUSPEND to the dispatcher: it wakes that process in its own wait, with its own
`wait_id`, and ends in its next wait, with nothing of the others changed. -/
theorem resume_cooperates (ticks : Nat → UInt64) (id : ι → UInt8) (handle : ι → Handle)
    (hLegal : Legal commands) :
    ∃ s, Runs ticks (.initial id handle) commands s ∧
      (∀ s', Runs ticks (.initial id handle) commands s' → s' = s) ∧
      s.waitIds.length = calls commands ∧ (calls commands < 2 ^ 32 → s.waitIds.Nodup) ∧
      ∀ p ∈ started commands,
        (s.process p).nSuspends = UInt64.ofNat (1 + resumes p commands) ∧
        ∃ demo waitId wakeupTime u t, s.Suspended p demo waitId wakeupTime ∧
          Steps ticks (s.issue ticks (.vlibProcessResume p)) u ∧
          u.control.current = .process p ∧
          u.control.frames (.process p) =
            waitFrames demo p waitId wakeupTime processResumeLongjmpResume ∧
          Steps ticks u t ∧ t.AtMain processReturnLongjmpSuspend ∧
          (∀ r t', Performs ticks s (.vlibProcessResume p) r t' →
            r = processReturnLongjmpSuspend ∧ t' = t) ∧
          t.Suspended p demo s.id (ticks s.readings) ∧
          (t.process p).nSuspends = (s.process p).nSuspends + 1 ∧
          t.log = s.log ++ [line s p waitId true, line s p s.id false] ∧ Elsewhere p s t := by
  obtain ⟨s, hRuns, h⟩ := dispatched_run ticks id handle hLegal
  refine ⟨s, hRuns, fun s' hRuns' => hRuns'.unique hRuns, ?_, fun hFew => ?_, fun p hMem => ?_⟩
  · rw [h.waitIds, List.length_map, List.length_range]
  · rw [h.waitIds]
    exact nodup_waitIds (Nat.le_of_lt hFew)
  · refine ⟨h.nSuspends p hMem, ?_⟩
    obtain ⟨r, hMain⟩ := h.atMain
    obtain ⟨demo, waitId, wakeupTime, hSuspended⟩ := h.suspended p hMem
    obtain ⟨u, t, hWake, hCurrent, hFrames, hSteps, hCalled⟩ :=
      resume_called ticks hMain hSuspended
    refine ⟨demo, waitId, wakeupTime, u, t, hSuspended, hWake, hCurrent, hFrames, hSteps,
      hCalled.atMain, fun r' t' hPerforms => ?_, hCalled.suspended, hCalled.nSuspends,
      hCalled.log, hCalled.elsewhere⟩
    exact hPerforms.unique ⟨hWake.trans hSteps, hCalled.atMain⟩

/-- Two processes, started and then resumed in the other order. -/
theorem resume_cooperates_two :
    ∃ s, Runs (fun n => UInt64.ofNat n) (.initial (fun p : Bool => if p then 1 else 0)
        fun p => if p then .demo1 else .demo2)
        [.stamp false, .startProcess false, .startProcess true, .vlibProcessResume true,
          .vlibProcessResume false] s ∧
      s.waitIds.Nodup ∧ (s.process true).nSuspends = 2 := by
  have hLegal : Legal [Command.stamp false, .startProcess false, .startProcess true,
      .vlibProcessResume true, .vlibProcessResume false] :=
    .vlibProcessResume (.vlibProcessResume (.startProcess (.startProcess (.stamp .nil false)
      (by decide)) (by decide)) (by decide)) (by decide)
  obtain ⟨s, hRuns, -, -, hNodup, hProcesses⟩ := resume_cooperates (fun n => UInt64.ofNat n)
    (fun p : Bool => if p then 1 else 0) (fun p => if p then .demo1 else .demo2) hLegal
  exact ⟨s, hRuns, hNodup (by decide), (hProcesses true (by decide)).1⟩

end DpdkPerf.VppTest
