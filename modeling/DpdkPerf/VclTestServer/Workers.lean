import DpdkPerf.Machine.Tally
import DpdkPerf.VclTestServer.Worker

/-! The workers of vcl-test-server as threads of one process, for stream
protocols: `main` starts them, they share two counters in `vcl_server_main`,
and `main` frees their records when no worker is active. The counters are
volatile and have no lock, so an update is a load and a later store, and
other threads run in between. -/
namespace DpdkPerf.VclTestServer

/-- `active_workers` and `worker_fails`. Each stays within twice the number
of workers, far from the ends of an `int`. -/
structure Counters where
  activeWorkers : Int := 0
  workerFails : Int := 0
  deriving DecidableEq, Repr

/-- Where the thread of a worker stands in `vts_worker_loop`. -/
inductive WorkerThread where
  /-- No thread was created for the worker. -/
  | absent
  /-- In `vts_worker_init`. -/
  | init
  /-- `active_workers` is loaded and not yet stored. -/
  | register (loaded : Int)
  | loop (s : Server)
  /-- `worker_fails` is loaded and not yet stored. -/
  | recordFail (loaded : Int)
  /-- At `done`, coming from `fail` or not. -/
  | closing (failed : Bool)
  /-- `active_workers` is loaded and not yet stored. -/
  | deregister (loaded : Int) (failed : Bool)
  | ended (failed : Bool)
  deriving DecidableEq

inductive ThreadInput where
  /-- The calls of `vts_worker_init`. One that fails ends the process. -/
  | workerInit (ok : Bool)
  | loop (input : Input)
  /-- `vppcom_epoll_wait` returns an error. -/
  | epollFails
  /-- A step that waits for nothing. -/
  | go
  deriving DecidableEq

namespace WorkerThread

/-- Counted in `active_workers` if no update is lost. -/
def registered : WorkerThread → Bool
  | .loop _ | .recordFail _ | .closing _ | .deregister _ _ => true
  | .absent | .init | .register _ | .ended _ => false

/-- Counted in `worker_fails` if no update is lost. -/
def failed : WorkerThread → Bool
  | .closing failed | .deregister _ failed | .ended failed => failed
  | .absent | .init | .register _ | .loop _ | .recordFail _ => false

/-- Created and not yet counted in `active_workers`. -/
def starting : WorkerThread → Bool
  | .init | .register _ => true
  | _ => false

variable (V : VclTestApi) (useDs : Bool) (poolSize : Nat)

def Enabled : WorkerThread → ThreadInput → Prop
  | .init, .workerInit _ => True
  | .loop s, .loop input => (server V useDs).enabled s input
  | .loop s, .epollFails => s.worker.pc = .epollWait
  | .loop s, .go => s.worker.pc = .done ∨ s.worker.pc = .fail
  | .register _, .go | .recordFail _, .go | .closing _, .go | .deregister _ _, .go => True
  | _, _ => False

instance : (t : WorkerThread) → (input : ThreadInput) → Decidable (t.Enabled V useDs input)
  | .init, .workerInit _ => isTrue trivial
  | .init, .loop _ | .init, .epollFails | .init, .go => isFalse id
  | .loop s, .loop input => inferInstanceAs (Decidable ((server V useDs).enabled s input))
  | .loop s, .epollFails => inferInstanceAs (Decidable (s.worker.pc = .epollWait))
  | .loop s, .go => inferInstanceAs (Decidable (s.worker.pc = .done ∨ s.worker.pc = .fail))
  | .loop _, .workerInit _ => isFalse id
  | .register _, .go | .recordFail _, .go | .closing _, .go | .deregister _ _, .go =>
      isTrue trivial
  | .register _, .workerInit _ | .register _, .loop _ | .register _, .epollFails
  | .recordFail _, .workerInit _ | .recordFail _, .loop _ | .recordFail _, .epollFails
  | .closing _, .workerInit _ | .closing _, .loop _ | .closing _, .epollFails
  | .deregister _ _, .workerInit _ | .deregister _ _, .loop _ | .deregister _ _, .epollFails
  | .absent, _ | .ended _, _ => isFalse id

/-- One step of a thread, with the counters as it finds them. -/
def step (counters : Counters) : WorkerThread → ThreadInput → WorkerThread × Counters
  | .init, .workerInit true => (.register counters.activeWorkers, counters)
  | .register loaded, .go =>
      (.loop (Server.initial V poolSize), { counters with activeWorkers := loaded + 1 })
  | .loop s, .loop input => (.loop ((server V useDs).next s input), counters)
  | .loop _, .epollFails => (.recordFail counters.workerFails, counters)
  | .loop s, .go =>
      if s.worker.pc = .fail then (.recordFail counters.workerFails, counters)
      else (.closing false, counters)
  | .recordFail loaded, .go => (.closing true, { counters with workerFails := loaded - 1 })
  | .closing failed, .go => (.deregister counters.activeWorkers failed, counters)
  | .deregister loaded failed, .go =>
      (.ended failed, { counters with activeWorkers := loaded - 1 })
  | t, _ => (t, counters)

/-- The step reads or writes the worker's record. Only the updates of the
counters and the jump out of the loop do not. -/
def accesses : WorkerThread → ThreadInput → Bool
  | .closing _, .go => true
  | _, .go => false
  | _, _ => true

end WorkerThread

/-- Where `main` stands, from `vts_worker_init (&vsm->workers[0])` on. The
first worker runs on this thread. -/
inductive MainPc where
  | initFirst
  /-- The thread of worker `i` is created next. -/
  | create (i : Nat)
  | loopFirst
  /-- `while (vsm->active_workers > 0)`. -/
  | poll
  | destroyApp
  | freeWorkers
  | ret
  | returned (code : Int)
  /-- `vtfail` ended the process. -/
  | exited
  deriving DecidableEq, Repr

namespace MainPc

/-- The process has ended. -/
def isOver : MainPc → Bool
  | .returned _ | .exited => true
  | _ => false

/-- `main` has freed the records of the workers. -/
def freed : MainPc → Bool
  | .ret | .returned _ => true
  | _ => false

end MainPc

structure Workers (n : Nat) where
  main : MainPc
  thread : Fin (n + 1) → WorkerThread
  counters : Counters
  deriving DecidableEq

inductive WorkersInput (n : Nat) where
  /-- A step of `main`, and whether `pthread_create` succeeds if it is called. -/
  | main (createOk : Bool)
  | thread (k : Fin (n + 1)) (input : ThreadInput)
  deriving DecidableEq

namespace Workers

variable {n : Nat}

/-- `main` after `calloc`, with `cfg.workers = n + 1`. -/
def start (n : Nat) : Workers n where
  main := .initFirst
  thread := Function.update (fun _ => .absent) 0 .init
  counters := {}

def mainStep (s : Workers n) (createOk : Bool) : Workers n :=
  match s.main with
  | .initFirst => { s with main := .create 1 }
  | .create i =>
      -- The result of `pthread_create` is not looked at.
      if h : i < n + 1 then
        { s with
          main := .create (i + 1)
          thread := if createOk then Function.update s.thread ⟨i, h⟩ .init else s.thread }
      else { s with main := .loopFirst }
  | .loopFirst => { s with main := .poll }
  | .poll => if 0 < s.counters.activeWorkers then s else { s with main := .destroyApp }
  | .destroyApp => { s with main := .freeWorkers }
  | .freeWorkers => { s with main := .ret }
  | .ret => { s with main := .returned s.counters.workerFails }
  | .returned _ | .exited => s

/-- `main` goes on when `vts_worker_init` or `vts_worker_loop` has returned
for the first worker. -/
def MainEnabled (s : Workers n) : Prop :=
  match s.main with
  | .initFirst => (s.thread 0).registered
  | .loopFirst => ∃ failed, s.thread 0 = .ended failed
  | .returned _ | .exited => False
  | _ => True

/-- The first worker runs where `main` calls it, any other until the process
ends. -/
def Runs (s : Workers n) (k : Fin (n + 1)) : Prop :=
  if k = 0 then s.main = .initFirst ∧ (s.thread 0).starting ∨ s.main = .loopFirst
  else s.main.isOver = false

instance : (s : Workers n) → Decidable s.MainEnabled
  | ⟨.initFirst, thread, _⟩ => inferInstanceAs (Decidable ((thread 0).registered = true))
  | ⟨.loopFirst, thread, _⟩ => inferInstanceAs (Decidable (∃ failed, thread 0 = .ended failed))
  | ⟨.returned _, _, _⟩ | ⟨.exited, _, _⟩ => isFalse id
  | ⟨.create _, _, _⟩ | ⟨.poll, _, _⟩ | ⟨.destroyApp, _, _⟩ | ⟨.freeWorkers, _, _⟩
  | ⟨.ret, _, _⟩ => isTrue trivial

instance (s : Workers n) (k : Fin (n + 1)) : Decidable (s.Runs k) :=
  inferInstanceAs (Decidable (ite ..))

variable (V : VclTestApi) (useDs : Bool) (poolSize : Nat)

def Enabled (s : Workers n) : WorkersInput n → Prop
  | .main _ => s.MainEnabled
  | .thread k input => s.Runs k ∧ (s.thread k).Enabled V useDs input

instance (s : Workers n) : (input : WorkersInput n) → Decidable (s.Enabled V useDs input)
  | .main _ => inferInstanceAs (Decidable s.MainEnabled)
  | .thread _ _ => inferInstanceAs (Decidable (_ ∧ _))

def next (s : Workers n) : WorkersInput n → Workers n
  | .main createOk => s.mainStep createOk
  | .thread k input =>
      let r := (s.thread k).step V useDs poolSize s.counters input
      { main := if input = .workerInit false then .exited else s.main
        thread := Function.update s.thread k r.1
        counters := r.2 }

/-- The record a step accesses. -/
def accessed (s : Workers n) : WorkersInput n → Option (Fin (n + 1))
  | .main _ =>
      match s.main with
      | .create i => if h : i < n + 1 then some ⟨i, h⟩ else none
      | _ => none
  | .thread k input => if (s.thread k).accesses input then some k else none

end Workers

/-- Runs of the whole server, with any interleaving of its threads. -/
def workers (V : VclTestApi) (useDs : Bool) (poolSize n : Nat) :
    Machine (Workers n) (WorkersInput n) (Option (Fin (n + 1))) where
  enabled := Workers.Enabled V useDs
  next := Workers.next V useDs poolSize
  output := Workers.accessed

instance (V : VclTestApi) (useDs : Bool) (poolSize n : Nat) (s : Workers n)
    (input : WorkersInput n) : Decidable ((workers V useDs poolSize n).enabled s input) :=
  inferInstanceAs (Decidable (s.Enabled V useDs input))

end DpdkPerf.VclTestServer
