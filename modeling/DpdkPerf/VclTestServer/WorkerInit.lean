import DpdkPerf.Machine.Ladder
import DpdkPerf.VclTestServer.Options

/-! `vts_worker_init`: the calls by which a worker gets its listener, in their
order. The process ends at the first that is refused. -/
namespace DpdkPerf.VclTestServer

inductive VclCall where
  | workerRegister
  | sessionCreate (proto : Proto)
  | tlsAddCert (fd : Int)
  | tlsAddKey (fd : Int)
  | sessionBind (fd : Int) (endpt : Endpoint)
  | sessionListen (fd : Int) (queueLen : Nat)
  | epollCreate
  /-- With `EPOLLIN`, and all bits of the data set. -/
  | epollCtlAdd (epfd fd : Int)
  deriving DecidableEq, Repr

/-- The arguments of `vtfail`. -/
structure VtFail where
  fn : String
  rv : Int
  deriving DecidableEq, Repr

/-- The listener and the epoll of the worker. -/
def vtsWorkerInit (answer : VclCall → Int) (cfg : ServerCfg) (wrkIndex : Nat) :
    EStateM VtFail (List VclCall) (Int × Int) := do
  let _ ← (if wrkIndex ≠ 0 then
      checkedCall answer .workerRegister (· ≠ 0) fun _ => ⟨"vppcom_worker_register()", 1⟩
    else pure 0)
  let listenFd ← checkedCall answer (.sessionCreate cfg.proto) (· < 0) fun rv =>
    ⟨"vppcom_session_create()", rv⟩
  let _ ← (if cfg.proto = .tls then
      call answer (.tlsAddCert listenFd) >>= fun _ => call answer (.tlsAddKey listenFd)
    else pure 0)
  let _ ← checkedCall answer (.sessionBind listenFd cfg.endpt) (· < 0) fun rv =>
    ⟨"vppcom_session_bind()", rv⟩
  let _ ← (if cfg.proto ≠ .udp then
      checkedCall answer (.sessionListen listenFd 10) (· < 0) fun rv =>
        ⟨"vppcom_session_listen()", rv⟩
    else pure 0)
  let epfd ← checkedCall answer .epollCreate (· < 0) fun rv => ⟨"vppcom_epoll_create()", rv⟩
  let _ ← checkedCall answer (.epollCtlAdd epfd listenFd) (· < 0) fun rv => ⟨"vppcom_epoll_ctl", rv⟩
  return (listenFd, epfd)

/-- The answer ends the process. What the calls for the certificate return is
not looked at. -/
def Refused (answer : VclCall → Int) : VclCall → Prop
  | .workerRegister => answer .workerRegister ≠ 0
  | .tlsAddCert _ | .tlsAddKey _ => False
  | c => answer c < 0

instance (answer : VclCall → Int) : DecidablePred (Refused answer)
  | .workerRegister => inferInstanceAs (Decidable (answer .workerRegister ≠ 0))
  | .tlsAddCert _ | .tlsAddKey _ => isFalse id
  | .sessionCreate proto => inferInstanceAs (Decidable (answer (.sessionCreate proto) < 0))
  | .sessionBind fd endpt => inferInstanceAs (Decidable (answer (.sessionBind fd endpt) < 0))
  | .sessionListen fd queueLen =>
      inferInstanceAs (Decidable (answer (.sessionListen fd queueLen) < 0))
  | .epollCreate => inferInstanceAs (Decidable (answer .epollCreate < 0))
  | .epollCtlAdd epfd fd => inferInstanceAs (Decidable (answer (.epollCtlAdd epfd fd) < 0))

/-- The calls of a worker of whom nothing is refused. -/
def initCalls (answer : VclCall → Int) (cfg : ServerCfg) (wrkIndex : Nat) : List VclCall :=
  let listenFd := answer (.sessionCreate cfg.proto)
  (if wrkIndex ≠ 0 then [.workerRegister] else []) ++
    ([.sessionCreate cfg.proto] ++
      ((if cfg.proto = .tls then [.tlsAddCert listenFd, .tlsAddKey listenFd] else []) ++
        ([.sessionBind listenFd cfg.endpt] ++
          ((if cfg.proto ≠ .udp then [.sessionListen listenFd 10] else []) ++
            ([.epollCreate] ++ ([.epollCtlAdd (answer .epollCreate) listenFd] ++ []))))))

variable {answer : VclCall → Int} {cfg : ServerCfg} {wrkIndex : Nat}

/-- The function is a ladder over its checked calls. -/
theorem vtsWorkerInit_climbs (answer : VclCall → Int) (cfg : ServerCfg) (wrkIndex : Nat) :
    Climbs (Refused answer) (vtsWorkerInit answer cfg wrkIndex) (initCalls answer cfg wrkIndex)
      (answer (.sessionCreate cfg.proto), answer .epollCreate) := by
  have hCert : ¬ Refused answer (.tlsAddCert (answer (.sessionCreate cfg.proto))) := id
  have hKey : ¬ Refused answer (.tlsAddKey (answer (.sessionCreate cfg.proto))) := id
  have hChecked (c : VclCall) (fail : Int → VtFail) (h : Refused answer c ↔ answer c < 0) :
      Climbs (Refused answer) (checkedCall answer c (· < 0) fail) [c] (answer c) :=
    climbs_checkedCall answer fail h
  have hRegister (fail : Int → VtFail) : Climbs (Refused answer)
      (checkedCall answer .workerRegister (· ≠ 0) fail) [.workerRegister] _ :=
    climbs_checkedCall answer fail Iff.rfl
  unfold vtsWorkerInit initCalls
  apply Climbs.ite_bind fun _ => hRegister _
  apply (hChecked _ _ Iff.rfl).bind
  apply Climbs.ite_bind fun _ => (climbs_call answer hCert).bind (climbs_call answer hKey)
  apply (hChecked _ _ Iff.rfl).bind
  apply Climbs.ite_bind fun _ => hChecked _ _ Iff.rfl
  apply (hChecked _ _ Iff.rfl).bind
  exact (hChecked _ _ Iff.rfl).bind (climbs_pure _)

/-- A worker whose listener is bound to the endpoint, watched by its epoll, and
listening unless it is for UDP. -/
structure Listening (answer : VclCall → Int) (cfg : ServerCfg) (calls : List VclCall)
    (listenFd epfd : Int) : Prop where
  created : .sessionCreate cfg.proto ∈ calls ∧ answer (.sessionCreate cfg.proto) = listenFd
  bound : .sessionBind listenFd cfg.endpt ∈ calls
  listens : .sessionListen listenFd 10 ∈ calls ↔ cfg.proto ≠ .udp
  watched : .epollCtlAdd epfd listenFd ∈ calls
  accepted : ∀ c ∈ calls, ¬ Refused answer c

/-- At its top the worker is listening. -/
theorem initCalls_listening (h : ∀ c ∈ initCalls answer cfg wrkIndex, ¬ Refused answer c) :
    Listening answer cfg (initCalls answer cfg wrkIndex) (answer (.sessionCreate cfg.proto))
      (answer .epollCreate) where
  created := ⟨by simp [initCalls], rfl⟩
  bound := by simp [initCalls]
  listens := by
    unfold initCalls
    by_cases hUdp : cfg.proto = .udp
    · simp [hUdp]
    · simp [hUdp]
  watched := by simp [initCalls]
  accepted := h

/-- A worker is ready with a listener as the configuration asks for it exactly
if nothing is refused. Otherwise the process ends, and the calls made are those
up to the first that is refused. -/
theorem vtsWorkerInit_iff (answer : VclCall → Int) (cfg : ServerCfg) (wrkIndex : Nat) :
    match (vtsWorkerInit answer cfg wrkIndex).run [] with
    | .ok (listenFd, epfd) calls =>
        (∀ c ∈ initCalls answer cfg wrkIndex, ¬ Refused answer c) ∧
          Listening answer cfg calls listenFd epfd
    | .error _ calls =>
        (∃ c ∈ initCalls answer cfg wrkIndex, Refused answer c) ∧
          calls = through (Refused answer) (initCalls answer cfg wrkIndex) := by
  obtain ⟨hNone, hRun⟩ | ⟨hRefused, fail, hRun⟩ := vtsWorkerInit_climbs answer cfg wrkIndex []
  · rw [hRun]
    exact ⟨hNone, initCalls_listening hNone⟩
  · rw [hRun]
    exact ⟨hRefused, rfl⟩

end DpdkPerf.VclTestServer
