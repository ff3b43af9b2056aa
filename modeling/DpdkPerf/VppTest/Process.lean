import DpdkPerf.Machine.Longjmp

/-! The cooperative processes of the vpp-test program. Each has a stack of its
own, and control goes between it and the dispatcher through the two jump
buffers of the process. A step is one statement of the running function. -/
namespace DpdkPerf.VppTest

/-- `clib_longjmp` values. -/
def processReturnLongjmpReturn : UInt64 := 3
def processReturnLongjmpSuspend : UInt64 := 4
def processResumeLongjmpSuspend : UInt64 := 0
def processResumeLongjmpResume : UInt64 := 1

inductive StackId (ι : Type*) where
  | main
  | process (p : ι)
  deriving DecidableEq

/-- The calls of `clib_setjmp`, by the function they are in. -/
inductive SetjmpSite where
  | startProcess
  | vlibProcessResume
  | vlibProcessWait
  deriving DecidableEq, Repr

/-- The two process handlers. -/
inductive Handle where
  | demo1
  | demo2
  deriving DecidableEq, Repr

/-- Where `start_process` or `vlib_process_resume` stands. -/
inductive CallPc where
  | setjmp
  /-- `clib_setjmp` has returned `r`. -/
  | jumped (r : UInt64)
  /-- In `clib_calljmp`. -/
  | calljmp
  | ret (value : UInt64)
  deriving DecidableEq, Repr

inductive BootstrapPc where
  | start
  /-- In `p->handle (arg)`. -/
  | handle
  /-- `clib_longjmp (&p->return_longjmp, n)`. -/
  | longjmp
  deriving DecidableEq, Repr

inductive DemoPc where
  | newId
  | warnWait
  /-- In `vlib_process_wait_for_event_or_clock`. -/
  | wait
  | warnGet
  deriving DecidableEq, Repr

inductive WaitPc where
  | wakeupTime
  | setjmp
  /-- `clib_setjmp` has returned `r`. -/
  | jumped (r : UInt64)
  | ret (value : UInt64)
  deriving DecidableEq, Repr

/-- A function activation with its locals. -/
inductive Frame (ι : Type*) where
  /-- The dispatcher, with the value of its last call unless it is in one. -/
  | main (result : Option UInt64)
  | startProcess (p : ι) (pc : CallPc)
  | vlibProcessResume (p : ι) (pc : CallPc)
  | vlibProcessBootstrap (p : ι) (pc : BootstrapPc)
  | demo (handle : Handle) (p : ι) (waitId : UInt32) (pc : DemoPc)
  | vlibProcessWait (p : ι) (wakeupTime : UInt64) (pc : WaitPc)
  deriving DecidableEq

structure Process (ι : Type*) where
  id : UInt8
  handle : Handle
  returnLongjmp : Option (JmpBuf (StackId ι) SetjmpSite) := none
  resumeLongjmp : Option (JmpBuf (StackId ι) SetjmpSite) := none
  nSuspends : UInt64 := 0
  lastTimeStamp : UInt64 := 0

/-- A line the handlers print, before a wait or after it. -/
structure Warning where
  id : UInt8
  waitId : UInt32
  nSuspends : UInt64
  getEvent : Bool
  deriving DecidableEq, Repr

/-- `id` is the static variable of `new_id`, and `readings` counts the
readings of the clock. -/
structure Sched (ι : Type*) where
  control : Stacks (StackId ι) (Frame ι)
  process : ι → Process ι
  id : UInt32
  readings : Nat
  log : List Warning

variable {ι : Type*} [DecidableEq ι]

/-- No process is started, and their memory is zeroed but for what `main`
sets up. -/
def Sched.initial (id : ι → UInt8) (handle : ι → Handle) : Sched ι where
  control := ⟨.main, Function.update (fun _ => []) .main [.main (some 0)]⟩
  process p := { id := id p, handle := handle p }
  id := 0
  readings := 0
  log := []

/-- A frame that a `clib_longjmp` lands in: its `clib_setjmp` returns `r`. -/
def Frame.jumped (r : UInt64) : SetjmpSite → Frame ι → Option (Frame ι)
  | .startProcess, .startProcess p _ => some (.startProcess p (.jumped r))
  | .vlibProcessResume, .vlibProcessResume p _ => some (.vlibProcessResume p (.jumped r))
  | .vlibProcessWait, .vlibProcessWait p wakeupTime _ =>
      some (.vlibProcessWait p wakeupTime (.jumped r))
  | _, _ => none

/-- A frame that the function it called returns to. -/
def Frame.returned (value : UInt64) : Frame ι → Option (Frame ι)
  | .main none => some (.main (some value))
  | .vlibProcessBootstrap p .handle => some (.vlibProcessBootstrap p .longjmp)
  | .demo handle p waitId .wait => some (.demo handle p waitId .warnGet)
  | _ => none

namespace Sched

def withTop (s : Sched ι) (frames : List (Frame ι)) : Sched ι :=
  { s with control := s.control.withTop frames }

def setProcess (s : Sched ι) (p : ι) (process : Process ι) : Sched ι :=
  { s with process := Function.update s.process p process }

/-- `clib_longjmp`. A buffer that was never filled leads nowhere. -/
def longjmp (s : Sched ι) (buf : Option (JmpBuf (StackId ι) SetjmpSite)) (r : UInt64) :
    Option (Sched ι) :=
  buf.bind fun buf => (s.control.longjmp (Frame.jumped r) buf).map fun control => { s with control }

def ret (s : Sched ι) (value : UInt64) : List (Frame ι) → Option (Sched ι)
  | [] => none
  | caller :: below => (caller.returned value).map fun caller => s.withTop (caller :: below)

/-- After a call of `new_id`, which returns the old `id`. -/
def newId (s : Sched ι) : Sched ι := { s with id := s.id + 1 }

/-- After a reading of the clock. -/
def readClock (s : Sched ι) : Sched ι := { s with readings := s.readings + 1 }

/-- `p->n_suspends += 1`. -/
def countSuspend (s : Sched ι) (p : ι) : Sched ι :=
  s.setProcess p { s.process p with nSuspends := (s.process p).nSuspends + 1 }

def warn (s : Sched ι) (p : ι) (waitId : UInt32) (getEvent : Bool) : Sched ι :=
  { s with log := s.log ++ [⟨(s.process p).id, waitId, (s.process p).nSuspends, getEvent⟩] }

/-- `vlib_process_wait_for_event_or_clock`. -/
def vlibProcessWait (ticks : Nat → UInt64) (s : Sched ι) (p : ι) (wakeupTime : UInt64)
    (below : List (Frame ι)) : WaitPc → Option (Sched ι)
  | .wakeupTime =>
      some (s.readClock.withTop
        (.vlibProcessWait p (ticks s.readings) .setjmp :: below))
  | .setjmp =>
      some ((s.setProcess p { s.process p with
          resumeLongjmp := some (s.control.setjmp .vlibProcessWait) }).withTop
        (.vlibProcessWait p wakeupTime (.jumped processResumeLongjmpSuspend) :: below))
  | .jumped r =>
      if r = processResumeLongjmpSuspend then
        s.longjmp (s.process p).returnLongjmp processReturnLongjmpSuspend
      else
        some (s.withTop
          (.vlibProcessWait p wakeupTime (.ret (wakeupTime - (s.process p).lastTimeStamp)) ::
            below))
  | .ret value => s.ret value below

def vlibProcessResume (s : Sched ι) (p : ι) (below : List (Frame ι)) :
    CallPc → Option (Sched ι)
  | .setjmp =>
      some ((s.setProcess p { s.process p with
          returnLongjmp := some (s.control.setjmp .vlibProcessResume) }).withTop
        (.vlibProcessResume p (.jumped processReturnLongjmpReturn) :: below))
  | .jumped r =>
      if r = processReturnLongjmpReturn then
        s.longjmp (s.process p).resumeLongjmp processResumeLongjmpResume
      else
        let s := if r = processReturnLongjmpSuspend then s.countSuspend p else s
        some (s.withTop (.vlibProcessResume p (.ret r) :: below))
  | .calljmp => none
  | .ret value => s.ret value below

/-- The value of `clib_calljmp` is not used. -/
def startProcess (s : Sched ι) (p : ι) (below : List (Frame ι)) : CallPc → Option (Sched ι)
  | .setjmp =>
      some ((s.setProcess p { s.process p with
          returnLongjmp := some (s.control.setjmp .startProcess) }).withTop
        (.startProcess p (.jumped processReturnLongjmpReturn) :: below))
  | .jumped r =>
      if r = processReturnLongjmpReturn then
        let s := s.withTop (.startProcess p .calljmp :: below)
        some { s with control := s.control.calljmp (.process p) (.vlibProcessBootstrap p .start) }
      else
        let s := if r = processReturnLongjmpSuspend then s.countSuspend p else s
        some (s.withTop (.startProcess p (.ret (s.process p).lastTimeStamp) :: below))
  | .calljmp => none
  | .ret value => s.ret value below

def vlibProcessBootstrap (s : Sched ι) (p : ι) (below : List (Frame ι)) :
    BootstrapPc → Option (Sched ι)
  | .start =>
      some (s.withTop (.demo (s.process p).handle p 0 .newId ::
        .vlibProcessBootstrap p .handle :: below))
  | .handle => none
  | .longjmp => s.longjmp (s.process p).returnLongjmp 1000

/-- `demo_1` and `demo_2`, whose bodies are the same. -/
def demo (s : Sched ι) (handle : Handle) (p : ι) (waitId : UInt32) (below : List (Frame ι)) :
    DemoPc → Option (Sched ι)
  | .newId => some (s.newId.withTop (.demo handle p s.id .warnWait :: below))
  | .warnWait =>
      some ((s.warn p waitId false).withTop
        (.vlibProcessWait p 0 .wakeupTime :: .demo handle p waitId .wait :: below))
  | .wait => none
  | .warnGet => some ((s.warn p waitId true).withTop (.demo handle p waitId .newId :: below))

/-- One statement of the running function. The dispatcher, between two calls,
and a function that waits for the one it called do not step. `ticks n` is what
the `n`-th reading of the clock gives. -/
def step (ticks : Nat → UInt64) (s : Sched ι) : Option (Sched ι) :=
  match s.control.top with
  | [] | .main _ :: _ => none
  | .startProcess p pc :: below => s.startProcess p below pc
  | .vlibProcessResume p pc :: below => s.vlibProcessResume p below pc
  | .vlibProcessBootstrap p pc :: below => s.vlibProcessBootstrap p below pc
  | .demo handle p waitId pc :: below => s.demo handle p waitId below pc
  | .vlibProcessWait p wakeupTime pc :: below => s.vlibProcessWait ticks p wakeupTime below pc

end Sched

/-- What the dispatcher does: `p->last_time_stamp = clib_cpu_time_now ()`, or
one of its two calls. -/
inductive Command (ι : Type*) where
  | stamp (p : ι)
  | startProcess (p : ι)
  | vlibProcessResume (p : ι)
  deriving DecidableEq

namespace Sched

def issue (ticks : Nat → UInt64) (s : Sched ι) : Command ι → Sched ι
  | .stamp p => s.readClock.setProcess p { s.process p with lastTimeStamp := ticks s.readings }
  | .startProcess p => s.withTop [.startProcess p .setjmp, .main none]
  | .vlibProcessResume p => s.withTop [.vlibProcessResume p .setjmp, .main none]

/-- Control is with the dispatcher, whose last call returned `r`. -/
structure AtMain (s : Sched ι) (r : UInt64) : Prop where
  current : s.control.current = .main
  frames : s.control.frames .main = [.main (some r)]

end Sched
end DpdkPerf.VppTest
