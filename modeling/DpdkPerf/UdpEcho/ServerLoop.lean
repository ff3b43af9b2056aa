import DpdkPerf.UdpEcho.Control
import DpdkPerf.UdpEcho.StartUp

/-! The waits of the udp-echo server and the handlers that end them. A control
message is handled in the receive loop of `server_handle_event_queue`, which
is behind both waits, while the API replies may come at any time. -/
namespace DpdkPerf.UdpEcho

/-- `main` has the state of the connection and where the main thread stands,
`utm` what else the control handlers use. -/
structure ServerState where
  main : StartUp.Main
  utm : UdpEchoMain

def ServerState.initial (isConnected : Bool) (memory : Nat → AppSession) (fifos : Address → Nat) :
    ServerState where
  main := .initial isConnected
  utm := .initial isConnected [] memory fifos

inductive ServerStep where
  | main (step : StartUp.Step)
  /-- `handle_mq_event`. -/
  | mqEvent (d : Delivery)
  deriving DecidableEq

def ServerState.enabled (s : ServerState) : ServerStep → Prop
  | .main step => StartUp.enabled s.main step
  | .mqEvent d => (∃ mq, s.main.pc = .reading mq) ∧ d.slot ∉ s.utm.sessions.live

def ServerState.next (unformatUri : List UInt8 → Option SessionEndpoint) (s : ServerState) :
    ServerStep → ServerState
  | .main step => { s with main := StartUp.next s.main step }
  | .mqEvent d =>
      let utm := (handleMqEvent unformatUri { s.utm with state := s.main.state } d).1
      { main := { s.main with state := utm.state }, utm := utm }

/-- Runs of `udp_server_test` from the moment both requests are sent. -/
def serverLoop (unformatUri : List UInt8 → Option SessionEndpoint) :
    Machine ServerState ServerStep Unit where
  enabled := ServerState.enabled
  next := ServerState.next unformatUri
  output _ _ := ()

/-- The step handles the reply to the attach or to the bind request. -/
def ServerStep.Answers : ServerStep → Prop
  | .main (.reply (.applicationAttach _ _)) | .main (.reply (.bindUri _)) => True
  | _ => False

/-- Nothing has failed: neither a request nor the wait for it. -/
def ServerState.NoFailure (s : ServerState) : Prop :=
  s.main.state ≠ .failed ∧ s.main.pc ≠ .gaveUp

/-- From every state reached before the two requests are answered and without
a failure, the receive loop can be reached by a run in which both are answered
with success. -/
def NoDeadlock (unformatUri : List UInt8 → Option SessionEndpoint) (isConnected : Bool)
    (memory : Nat → AppSession) (fifos : Address → Nat) : Prop :=
  ∀ past, (serverLoop unformatUri).Admits (.initial isConnected memory fifos) past →
    (∀ step ∈ past, ¬ step.Answers) →
    ((serverLoop unformatUri).run (.initial isConnected memory fifos) past).NoFailure →
    ∃ future mp,
      (serverLoop unformatUri).Admits (.initial isConnected memory fifos) (past ++ future) ∧
        mp.retval = 0 ∧ mp.segmentNameLength ≠ 0 ∧ mp.appEventQueueAddress ≠ 0 ∧
        .main (.reply (.applicationAttach mp 0)) ∈ future ∧ .main (.reply (.bindUri 0)) ∈ future ∧
        ∃ mq, ((serverLoop unformatUri).run (.initial isConnected memory fifos)
          (past ++ future)).main.pc = .reading mq

variable {unformatUri : List UInt8 → Option SessionEndpoint} {memory : Nat → AppSession}
  {fifos : Address → Nat} {s : ServerState}

/-- A connected server never gets past its first wait: BOUND, the state it
waits for, is set by a handler behind it only. -/
theorem connected_run {steps : List ServerStep}
    (hAdmits : (serverLoop unformatUri).Admits (.initial true memory fifos) steps) (mq : Address) :
    ((serverLoop unformatUri).run (.initial true memory fifos) steps).main.pc ≠ .reading mq := by
  have hWaits : ∃ past, StartUp.Invariant true past
      ((serverLoop unformatUri).run (.initial true memory fifos) steps).main := by
    refine hAdmits.invariant_run (I := fun s : ServerState =>
      ∃ past, StartUp.Invariant true past s.main) ?_ ⟨[], StartUp.invariant_initial true⟩
    rintro s step hEnabled ⟨past, h⟩
    cases step with
    | main step => exact ⟨past ++ [step], h.next hEnabled fun hMode => absurd hMode (by decide)⟩
    | mqEvent d =>
        obtain ⟨⟨mq, hPc⟩, -⟩ := hEnabled
        rcases h.waiting rfl with hWait | hGaveUp
        · rw [hPc] at hWait
          cases hWait
        · rw [hPc] at hGaveUp
          cases hGaveUp
  obtain ⟨past, h⟩ := hWaits
  intro hPc
  rcases h.waiting rfl with hWait | hGaveUp
  · rw [hPc] at hWait
    cases hWait
  · rw [hPc] at hGaveUp
    cases hGaveUp

/-- Before the replies the main thread of a server that is not connected is
in its first wait, unless that failed. -/
structure ServerState.Waiting (s : ServerState) : Prop where
  mode : s.main.isConnected = false
  state : s.main.state ≠ .ready
  pc : s.main.pc = .waitForStateChange ∨ s.main.pc = .gaveUp

/-- A step without an answer leaves the server in its first wait, or past its
failure. -/
theorem ServerState.Waiting.next {step : ServerStep} (h : s.Waiting) (hEnabled : s.enabled step)
    (hAnswers : ¬ step.Answers) : (s.next unformatUri step).Waiting := by
  obtain ⟨hMode, hState, hPc⟩ := h
  cases step with
  | main step =>
      cases step with
      | reply r =>
          cases r with
          | applicationAttach mp rv => exact absurd trivial hAnswers
          | bindUri retval => exact absurd trivial hAnswers
          | unbindUri retval => exact ⟨hMode, ConnectionState.noConfusion, hPc⟩
          | applicationDetach retval => exact ⟨hMode, ConnectionState.noConfusion, hPc⟩
      | poll =>
          obtain ⟨-, hAwaited⟩ := hEnabled
          unfold StartUp.Main.waitForState at hAwaited
          rw [hMode] at hAwaited
          exact absurd hAwaited hState
      | pollFailed => exact ⟨hMode, hState, Or.inr rfl⟩
      | timeout => exact ⟨hMode, hState, Or.inr rfl⟩
      | enter =>
          have hEnter : s.main.pc = .enter := hEnabled
          rw [hEnter] at hPc
          rcases hPc with h | h <;> cases h
      | startReading =>
          obtain ⟨⟨mq, hReady⟩, -⟩ := hEnabled
          rw [hReady] at hPc
          rcases hPc with h | h <;> cases h
  | mqEvent d =>
      obtain ⟨⟨mq, hReading⟩, -⟩ := hEnabled
      rw [hReading] at hPc
      rcases hPc with h | h <;> cases h

/-- The replies to both requests, and the main thread's way to the queue. -/
def answered (mp : StartUp.ApplicationAttachReply) : List ServerStep :=
  [.main (.reply (.applicationAttach mp 0)), .main (.reply (.bindUri 0)), .main .poll,
    .main .enter, .main .startReading]

/-- Two replies take a server that is not connected from its wait to the
receive loop. -/
theorem answered_run {mp : StartUp.ApplicationAttachReply} (hRetval : mp.retval = 0)
    (hName : mp.segmentNameLength ≠ 0) (hMode : s.main.isConnected = false)
    (hPc : s.main.pc = .waitForStateChange) :
    (serverLoop unformatUri).Admits s (answered mp) ∧
      ((serverLoop unformatUri).run s (answered mp)).main.pc =
        .reading mp.appEventQueueAddress := by
  obtain ⟨⟨isConnected, state, queue, pc⟩, utm⟩ := s
  obtain rfl : isConnected = false := hMode
  obtain rfl : pc = .waitForStateChange := hPc
  have hAttach : StartUp.handleReply ⟨false, state, queue, .waitForStateChange⟩
      (.applicationAttach mp 0) =
        ⟨false, .attached, mp.appEventQueueAddress, .waitForStateChange⟩ := by
    unfold StartUp.handleReply StartUp.applicationAttachReplyHandler
    dsimp only
    rw [if_neg (not_not.mpr hRetval), if_neg hName, if_neg (not_not.mpr rfl)]
  unfold answered
  simp only [Machine.admits_cons, Machine.admits_nil, Machine.run_cons, Machine.run_nil, serverLoop,
    ServerState.next, StartUp.next, hAttach]
  exact ⟨⟨trivial, trivial, ⟨rfl, rfl⟩, rfl, ⟨⟨_, rfl⟩, rfl⟩, trivial⟩, rfl⟩

/-- The waits and the handlers do not deadlock exactly if the server is not a
connected one. -/
theorem noDeadlock_iff (isConnected : Bool) :
    NoDeadlock unformatUri isConnected memory fifos ↔ isConnected = false := by
  constructor
  · intro h
    cases isConnected with
    | false => rfl
    | true =>
        have hNoFailure : (ServerState.initial true memory fifos).NoFailure :=
          ⟨ConnectionState.noConfusion, StartUp.MainPc.noConfusion⟩
        obtain ⟨future, mp, hAdmits, -, -, -, -, -, mq, hReading⟩ := h [] (Machine.admits_nil _)
          (fun _ hStep => absurd hStep List.not_mem_nil) hNoFailure
        exact absurd hReading (connected_run hAdmits mq)
  · rintro rfl past hAdmits hUnanswered ⟨-, hWaits⟩
    have hMeets := hAdmits.and (Machine.meets_of_inputs hUnanswered _)
    have hWaiting : ((serverLoop unformatUri).run (.initial false memory fifos) past).Waiting :=
      hMeets.invariant_run (fun s step hStep h => h.next hStep.1 hStep.2)
        ⟨rfl, ConnectionState.noConfusion, Or.inl rfl⟩
    let mp : StartUp.ApplicationAttachReply := ⟨0, 1, 4096⟩
    have hRetval : mp.retval = 0 := rfl
    have hName : mp.segmentNameLength ≠ 0 := by decide
    obtain ⟨hFuture, hReading⟩ :=
      answered_run hRetval hName hWaiting.mode (hWaiting.pc.resolve_right hWaits)
    have hQueue : mp.appEventQueueAddress ≠ 0 := by decide
    refine ⟨answered mp, mp, (Machine.admits_append ..).mpr ⟨hAdmits, hFuture⟩, hRetval, hName,
      hQueue, List.mem_cons_self, List.mem_cons_of_mem _ List.mem_cons_self,
      mp.appEventQueueAddress, ?_⟩
    rw [Machine.run_append]
    exact hReading

/-- The connected server. -/
theorem not_noDeadlock :
    ¬ ∀ isConnected : Bool,
      NoDeadlock (fun _ => none) isConnected (fun _ => {}) (fun _ => 0) := by
  intro h
  have hNoFailure : (ServerState.initial true (fun _ => {}) fun _ => 0).NoFailure :=
    ⟨ConnectionState.noConfusion, StartUp.MainPc.noConfusion⟩
  obtain ⟨future, mp, hAdmits, -, -, -, -, -, mq, hReading⟩ := h true [] (Machine.admits_nil _)
    (fun _ hStep => absurd hStep List.not_mem_nil) hNoFailure
  exact absurd hReading (connected_run hAdmits mq)

end DpdkPerf.UdpEcho
