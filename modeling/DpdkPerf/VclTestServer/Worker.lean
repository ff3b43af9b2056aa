import DpdkPerf.Machine.Run
import DpdkPerf.VclTestServer.Connection
import Mathlib.Tactic.SplitIfs

/-! The event loop of a worker for stream protocols, and the state of the VPP
communications library that its calls change: which client sessions are open
and which of them epoll watches. -/
namespace DpdkPerf.VclTestServer

/-- Where the loop stands. -/
inductive WorkerPc where
  /-- Before the next epoll event. -/
  | epollWait
  /-- At `read_again`, for the connection in a slot. -/
  | readAgain (index : Nat)
  /-- All client connections closed. -/
  | done
  | fail
  /-- A record outside the pool was accessed. -/
  | fault
  deriving DecidableEq, Repr

structure Worker where
  connPool : List Conn
  nfds : Int
  pc : WorkerPc
  deriving DecidableEq

/-- The tag registered with a descriptor: `~0` for the listener, the slot
index for a client. Slot indices stay below `~0`. -/
inductive Tag where
  | listener
  | client (index : Nat)
  deriving DecidableEq, Repr

def Tag.index : Tag → Nat
  | .listener => 2 ^ 32 - 1
  | .client index => index

/-- The bits of an epoll event the loop looks at. -/
structure EpollEvent where
  tag : Tag
  hup : Bool := false
  rdhup : Bool := false
  epollin : Bool := true
  deriving DecidableEq, Repr

/-- How the calls of `vts_new_client` turn out, and the peer's address. -/
structure NewClient where
  reallocOk : Bool
  clientFd : Int32
  epollCtl : Int32
  endpt : Endpt := {}
  ip : Bytes := []
  deriving DecidableEq, Repr

/-- The result of `vts_conn_read`: a message, or an error that is or is not
`ECONNRESET`. -/
inductive ReadResult where
  | message (ds : Segments)
  | error (connReset : Bool)
  deriving DecidableEq, Repr

variable (V : VclTestApi) (useDs : Bool)

def vtsNewClient (w : Worker) (nc : NewClient) : Worker × List Call :=
  match connPoolAlloc V w.connPool nc.reallocOk with
  | (pool, none) => ({ w with connPool := pool }, [])
  | (pool, some i) =>
      if nc.clientFd < 0 then ({ w with connPool := pool }, [])
      else
        let pool := pool.modify i fun conn =>
          { conn with fd := nc.clientFd, endpt := nc.endpt, ip := nc.ip }
        if nc.epollCtl < 0 then ({ w with connPool := pool }, [.accept nc.clientFd])
        else
          ({ w with connPool := pool, nfds := w.nfds + 1 },
            [.accept nc.clientFd, .epollAdd nc.clientFd i])

/-- The body of the loop for one event, up to `read_again`. The hang-up bits
are tested before the tag. -/
def vtsWorkerEvent (w : Worker) (ev : EpollEvent) (nc : NewClient) : Worker × List Call :=
  if ev.hup || ev.rdhup then
    match w.connPool[ev.tag.index]? with
    | none => ({ w with pc := .fault }, [])
    | some conn =>
        let nfds := w.nfds - 1
        ({ w with nfds := nfds, pc := if nfds = 0 then .done else .epollWait }, [.close conn.fd])
  else
    match ev.tag with
    | .listener => vtsNewClient V w nc
    | .client index =>
        if ev.epollin then ({ w with pc := .readAgain index }, []) else ({ w with pc := .fail }, [])

/-- Where the loop goes from a handled message. Only data of a UNI or BI test
is read again at once, if the library has more. -/
def pcAfter (index : Nat) (env : Env) (handled : Handled) : WorkerPc :=
  match handled.route with
  | .handleCfg => if handled.nfds = 0 then .done else .epollWait
  | .serverRx => if env.nread then .readAgain index else .epollWait
  | .serverEcho | .notDrained => .epollWait

/-- One pass from `read_again`, for the connection in slot `index`. -/
def vtsWorkerRead (w : Worker) (index : Nat) (env : Env) (result : ReadResult) :
    Worker × List Call :=
  match w.connPool[index]? with
  | none => ({ w with pc := .fault }, [])
  | some conn =>
      match result with
      | .error connReset =>
          let stats := { conn.stats with rxXacts := conn.stats.rxXacts + env.rxXacts }
          ({ w with
              connPool := w.connPool.set index { conn with stats := stats }
              pc := if connReset then .fail else .epollWait }, [])
      | .message ds =>
          let handled := vtsHandleMessage V useDs env w.connPool index w.nfds conn ds
          ({ connPool := w.connPool.set index handled.conn
             nfds := handled.nfds
             pc := pcAfter index env handled }, handled.calls)

variable {V useDs} in
/-- A message is handled in its slot, and the loop goes on by that. -/
theorem vtsWorkerRead_message {w : Worker} {index : Nat} {env : Env} {ds : Segments} {conn : Conn}
    (hSlot : w.connPool[index]? = some conn) :
    vtsWorkerRead V useDs w index env (.message ds) =
      (let handled := vtsHandleMessage V useDs env w.connPool index w.nfds conn ds
      (⟨w.connPool.set index handled.conn, handled.nfds, pcAfter index env handled⟩,
        handled.calls)) := by
  unfold vtsWorkerRead
  rw [hSlot]

/-- The loop goes on unless a config message closed the last client. -/
theorem pcAfter_running_iff {index : Nat} {env : Env} {handled : Handled} :
    (pcAfter index env handled = .epollWait ∨ pcAfter index env handled = .readAgain index) ↔
      ¬ (handled.route = .handleCfg ∧ handled.nfds = 0) := by
  unfold pcAfter
  cases handled.route with
  | handleCfg =>
      dsimp only
      split_ifs with hNone <;> simp [hNone]
  | serverRx => cases env.nread <;> simp
  | serverEcho => simp
  | notDrained => simp

/-- Only a chunk of a test is read on from. -/
theorem pcAfter_readAgain {index j : Nat} {env : Env} {handled : Handled}
    (h : pcAfter index env handled = .readAgain j) : handled.route = .serverRx ∧ index = j := by
  unfold pcAfter at h
  cases hRoute : handled.route with
  | handleCfg =>
      rw [hRoute] at h
      dsimp only at h
      split_ifs at h
  | serverRx =>
      rw [hRoute] at h
      dsimp only at h
      split_ifs at h
      exact ⟨rfl, WorkerPc.readAgain.inj h⟩
  | serverEcho =>
      rw [hRoute] at h
      cases h
  | notDrained =>
      rw [hRoute] at h
      cases h

/-- The client sessions that are open, and the descriptors epoll watches
with their tags. -/
structure Vcl where
  sessions : List Int32
  watched : List (Int32 × Nat)
  deriving DecidableEq, Repr

def Vcl.call (vcl : Vcl) : Call → Vcl
  | .accept fd => { vcl with sessions := fd :: vcl.sessions }
  | .epollAdd fd tag => { vcl with watched := (fd, tag) :: vcl.watched }
  | .close fd =>
      { sessions := vcl.sessions.erase fd
        watched := vcl.watched.filter fun entry => entry.1 ≠ fd }
  | _ => vcl

structure Server where
  worker : Worker
  vcl : Vcl
  deriving DecidableEq

/-- The pool as `vts_worker_init` expands it, and no client yet. -/
def Server.initial (poolSize : Nat) : Server where
  worker := ⟨List.replicate poolSize (freshConn V), 0, .epollWait⟩
  vcl := ⟨[], []⟩

inductive Input where
  | event (ev : EpollEvent) (nc : NewClient)
  | read (env : Env) (result : ReadResult)
  deriving DecidableEq

/-- A message is not empty, and in copy mode it fits in the buffer the
library was given. -/
def Conn.Fits (conn : Conn) (ds : Segments) : Prop :=
  ds.data ≠ [] ∧ (useDs = false → ds.data.length ≤ conn.bufSize.toNat)

instance (conn : Conn) (ds : Segments) : Decidable (conn.Fits useDs ds) :=
  inferInstanceAs (Decidable (_ ∧ _))

/-- Events come for the listener and for watched sessions. A new session's
descriptor is not one that is open. -/
def Server.Enabled (s : Server) : Input → Prop
  | .event ev nc =>
      s.worker.pc = .epollWait ∧
        (∀ i, ev.tag = .client i → ∃ fd, (fd, i) ∈ s.vcl.watched) ∧
        (¬ nc.clientFd < 0 → nc.clientFd ∉ s.vcl.sessions)
  | .read _ result =>
      ∃ i, s.worker.pc = .readAgain i ∧
        ∀ conn ds, s.worker.connPool[i]? = some conn → result = .message ds →
          conn.Fits useDs ds

instance (s : Server) (ev : EpollEvent) :
    Decidable (∀ i, ev.tag = .client i → ∃ fd, (fd, i) ∈ s.vcl.watched) :=
  match ev.tag with
  | .listener => .isTrue fun _ h => by cases h
  | .client index => decidable_of_iff (index ∈ s.vcl.watched.map Prod.snd) (by simp)

instance (s : Server) (i : Nat) (result : ReadResult) :
    Decidable (∀ conn ds, s.worker.connPool[i]? = some conn → result = .message ds →
      conn.Fits useDs ds) :=
  match s.worker.connPool[i]?, result with
  | none, _ => .isTrue fun _ _ h => by cases h
  | some _, .error _ => .isTrue fun _ _ _ h => by cases h
  | some conn, .message ds => decidable_of_iff (conn.Fits useDs ds) (by simp)

instance (s : Server) (input : Input) : Decidable (s.Enabled useDs input) :=
  match input with
  | .event _ _ => inferInstanceAs (Decidable (_ ∧ _ ∧ _))
  | .read _ result =>
      match h : s.worker.pc with
      | .readAgain i => decidable_of_iff (∀ conn ds, s.worker.connPool[i]? = some conn →
          result = .message ds → conn.Fits useDs ds) (by simp [Server.Enabled, h])
      | .epollWait | .done | .fail | .fault => .isFalse (by simp [Server.Enabled, h])

def Server.step (s : Server) (input : Input) : Worker × List Call :=
  match input with
  | .event ev nc => vtsWorkerEvent V s.worker ev nc
  | .read env result =>
      match s.worker.pc with
      | .readAgain i => vtsWorkerRead V useDs s.worker i env result
      | _ => (s.worker, [])

/-- Runs of `vts_worker_loop`, from `vppcom_epoll_wait` to its exit. -/
def server : Machine Server Input (List Call) where
  enabled := Server.Enabled useDs
  next s input := ⟨(s.step V useDs input).1, (s.step V useDs input).2.foldl Vcl.call s.vcl⟩
  output s input := (s.step V useDs input).2

instance (s : Server) (input : Input) : Decidable ((server V useDs).enabled s input) :=
  inferInstanceAs (Decidable (s.Enabled useDs input))

end DpdkPerf.VclTestServer
