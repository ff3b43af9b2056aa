import DpdkPerf.Machine.Run
import Mathlib.Data.List.Basic
import Mathlib.Logic.Function.Basic

/-! RX events and the event flag of a session's rx fifo. VPP is the producer:
it enqueues, tests and sets the flag, and posts an event when the flag was
clear. The server takes the steps of `server_handle_fifo_event_rx` in program
order, and every step of either side is atomic. -/
namespace DpdkPerf.UdpEcho.Wakeup

/-- Where the server stands. Each position names the next statement. -/
inductive ServerPc where
  /-- `svm_msg_q_sub` in `server_handle_event_queue`. -/
  | eventQueue
  /-- `max_dequeue = svm_fifo_max_dequeue (rx_fifo)`. -/
  | maxDequeue (session : Nat)
  /-- `svm_fifo_unset_event (rx_fifo)`. -/
  | unsetEvent (session maxDequeue : Nat)
  /-- `if (!max_dequeue) return`. -/
  | test (session maxDequeue : Nat)
  /-- The receive loop, with `max_dequeue` bytes still to take. -/
  | receive (session maxDequeue : Nat)
  deriving DecidableEq, Repr

/-- Where VPP stands with one session. -/
inductive ProducerPc where
  | idle
  /-- Bytes are in the fifo, `svm_fifo_set_event` comes next. -/
  | setEvent
  /-- The flag was clear, so the event is about to be posted. -/
  | post
  deriving DecidableEq, Repr

structure Session where
  rxFifo : List UInt8 := []
  hasEvent : Bool := false
  producer : ProducerPc := .idle
  deriving DecidableEq, Repr

/-- `queue` holds the RX events of `our_event_queue`, oldest first, each by
its session index. A session that is not live has no producer. -/
structure State where
  sessions : Nat → Session
  live : Nat → Bool
  queue : List Nat
  server : ServerPc

def start : State where
  sessions _ := {}
  live _ := false
  queue := []
  server := .eventQueue

/-- The atomic steps. The first two are control messages, which the server
handles between RX events; the next three are the producer's. -/
inductive Step where
  | accepted (session : Nat)
  | disconnected (session : Nat)
  | enqueue (session : Nat) (bytes : List UInt8)
  | setEvent (session : Nat)
  | post (session : Nat)
  | dequeueEvent
  | maxDequeue
  | unsetEvent
  | test
  | receive (count : Nat)
  deriving DecidableEq, Repr

def State.setSession (s : State) (i : Nat) (session : Session) : State :=
  { s with sessions := Function.update s.sessions i session }

def enabled (s : State) : Step → Prop
  | .accepted i => s.server = .eventQueue ∧ s.live i = false
  | .disconnected i => s.server = .eventQueue ∧ s.live i = true
  | .enqueue i _ => s.live i = true ∧ (s.sessions i).producer = .idle
  | .setEvent i => s.live i = true ∧ (s.sessions i).producer = .setEvent
  | .post i => s.live i = true ∧ (s.sessions i).producer = .post
  | .dequeueEvent => s.server = .eventQueue ∧ s.queue ≠ []
  | .maxDequeue => ∃ i, s.server = .maxDequeue i
  | .unsetEvent => ∃ i m, s.server = .unsetEvent i m
  | .test => ∃ i m, s.server = .test i m
  | .receive count => ∃ i m, s.server = .receive i m ∧
      0 < count ∧ count ≤ m ∧ count ≤ (s.sessions i).rxFifo.length

/-- The server returns to its event queue from `test` when nothing was
queued, and from the receive loop once `max_dequeue` bytes are taken. -/
def next (s : State) : Step → State
  | .accepted i => { s.setSession i {} with live := Function.update s.live i true }
  | .disconnected i => { s with live := Function.update s.live i false }
  | .enqueue i bytes =>
      let session := s.sessions i
      s.setSession i { session with rxFifo := session.rxFifo ++ bytes, producer := .setEvent }
  | .setEvent i =>
      let session := s.sessions i
      if session.hasEvent then s.setSession i { session with producer := .idle }
      else s.setSession i { session with hasEvent := true, producer := .post }
  | .post i =>
      let session := s.sessions i
      { s.setSession i { session with producer := .idle } with queue := s.queue ++ [i] }
  | .dequeueEvent =>
      match s.queue with
      | [] => s
      | i :: rest => { s with queue := rest, server := .maxDequeue i }
  | .maxDequeue =>
      match s.server with
      | .maxDequeue i => { s with server := .unsetEvent i (s.sessions i).rxFifo.length }
      | _ => s
  | .unsetEvent =>
      match s.server with
      | .unsetEvent i m =>
          { s.setSession i { s.sessions i with hasEvent := false } with server := .test i m }
      | _ => s
  | .test =>
      match s.server with
      | .test i m => { s with server := if m = 0 then .eventQueue else .receive i m }
      | _ => s
  | .receive count =>
      match s.server with
      | .receive i m =>
          let session := s.sessions i
          { s.setSession i { session with rxFifo := session.rxFifo.drop count } with
            server := if m - count = 0 then .eventQueue else .receive i (m - count) }
      | _ => s

def machine : Machine State Step Unit where
  enabled := enabled
  next := next
  output _ _ := ()

/-- With the server back at its event queue and no event of the session
queued or on its way, the session's rx fifo is empty. -/
def NoLostWakeup (s : State) : Prop :=
  s.server = .eventQueue → ∀ i, s.live i = true → i ∉ s.queue →
    (s.sessions i).producer = .idle → (s.sessions i).rxFifo = []

/-- The one step that goes wrong. The server has counted `max_dequeue` bytes
of the session and not yet cleared its flag, more bytes are in the fifo, and
their producer finds the flag of the earlier event still set. -/
def Unseen (s : State) (i : Nat) : Prop :=
  ∃ m, s.server = .unsetEvent i m ∧ (s.sessions i).hasEvent = true ∧ i ∉ s.queue ∧
    m < (s.sessions i).rxFifo.length

def Timely (s : State) (step : Step) : Prop :=
  ∀ i, step = .setEvent i → ¬ Unseen s i

@[simp] theorem setSession_sessions (s : State) (i : Nat) (session : Session) :
    (s.setSession i session).sessions = Function.update s.sessions i session := rfl

@[simp] theorem setSession_live (s : State) (i : Nat) (session : Session) :
    (s.setSession i session).live = s.live := rfl

@[simp] theorem setSession_queue (s : State) (i : Nat) (session : Session) :
    (s.setSession i session).queue = s.queue := rfl

@[simp] theorem setSession_server (s : State) (i : Nat) (session : Session) :
    (s.setSession i session).server = s.server := rfl

/-- The bytes of session `i` that the server has counted and will take. -/
def claimed (server : ServerPc) (i : Nat) : Nat :=
  match server with
  | .unsetEvent j m | .test j m | .receive j m => if j = i then m else 0
  | _ => 0

/-- A set flag has an event behind it that is still to be acted on. -/
def FlagAnswered (s : State) (i : Nat) : Prop :=
  (s.sessions i).hasEvent = true →
    i ∈ s.queue ∨ (s.sessions i).producer = .post ∨
      s.server = .maxDequeue i ∨ ∃ m, s.server = .unsetEvent i m

/-- Bytes beyond those the server has counted have an event to come. -/
def BytesCovered (s : State) (i : Nat) : Prop :=
  (s.sessions i).rxFifo.length ≤ claimed s.server i ∨ i ∈ s.queue ∨
    (s.sessions i).producer ≠ .idle ∨ s.server = .maxDequeue i

structure Invariant (s : State) : Prop where
  answered : ∀ i, FlagAnswered s i
  covered : ∀ i, BytesCovered s i

theorem invariant_start : Invariant start where
  answered i := by simp [FlagAnswered, start]
  covered i := by simp [BytesCovered, start]

/-- Under the invariant a session with data has an event that will be seen. -/
theorem Invariant.noLostWakeup {s : State} (h : Invariant s) : NoLostWakeup s := by
  intro hServer i _ hQueue hProducer
  rcases h.covered i with hBytes | hQueued | hBusy | hHandled
  · simpa [claimed, hServer] using hBytes
  · exact absurd hQueued hQueue
  · exact absurd hProducer hBusy
  · simp [hServer] at hHandled

/-- A step that leaves the event queue and the server alone and changes one
session needs checking for that session only. -/
theorem Invariant.setSession {s : State} (h : Invariant s) (i : Nat) (session : Session)
    (hAnswered : FlagAnswered (s.setSession i session) i)
    (hCovered : BytesCovered (s.setSession i session) i) :
    Invariant (s.setSession i session) := by
  constructor
  · intro j
    by_cases hj : j = i
    · exact hj ▸ hAnswered
    · simpa [FlagAnswered, Function.update_of_ne hj] using h.answered j
  · intro j
    by_cases hj : j = i
    · exact hj ▸ hCovered
    · simpa [BytesCovered, Function.update_of_ne hj] using h.covered j

/-- Moving the server between two positions that claim the same bytes is
harmless when the new position still answers a set flag. -/
theorem Invariant.setServer {s : State} (h : Invariant s) (server : ServerPc)
    (hAnswered : ∀ i, FlagAnswered { s with server := server } i)
    (hClaimed : ∀ i, claimed s.server i ≤ claimed server i)
    (hHandled : ∀ i, s.server = .maxDequeue i → (s.sessions i).rxFifo.length ≤ claimed server i) :
    Invariant { s with server := server } := by
  refine ⟨hAnswered, fun i => ?_⟩
  rcases h.covered i with hBytes | hQueued | hBusy | hServer
  · exact Or.inl (hBytes.trans (hClaimed i))
  · exact Or.inr (Or.inl hQueued)
  · exact Or.inr (Or.inr (Or.inl hBusy))
  · exact Or.inl (hHandled i hServer)

/-- The producer's test of the flag. If the flag is set, a queued event or
the handler that has not yet counted the bytes answers for them. -/
theorem invariant_setEvent {s : State} {i : Nat} (h : Invariant s)
    (hEnabled : enabled s (.setEvent i)) (hTimely : ¬ Unseen s i) :
    Invariant (next s (.setEvent i)) := by
  have hProducer : (s.sessions i).producer = .setEvent := hEnabled.2
  cases hFlag : (s.sessions i).hasEvent with
  | false =>
      simp only [next, hFlag, Bool.false_eq_true, if_false]
      apply h.setSession
      · intro _
        simp
      · simp [BytesCovered]
  | true =>
      simp only [next, hFlag, if_true]
      have hAnswered := h.answered i hFlag
      simp only [hProducer, reduceCtorEq, false_or] at hAnswered
      apply h.setSession
      · intro _
        simpa using hAnswered
      · by_cases hQueue : i ∈ s.queue
        · exact Or.inr (Or.inl hQueue)
        rcases hAnswered with hQueued | hHandled | ⟨m, hUnset⟩
        · exact absurd hQueued hQueue
        · exact Or.inr (Or.inr (Or.inr hHandled))
        · have hLe : (s.sessions i).rxFifo.length ≤ m := by
            by_contra hMore
            exact hTimely ⟨m, hUnset, hFlag, hQueue, Nat.lt_of_not_le hMore⟩
          exact Or.inl (by simpa [claimed, hUnset] using hLe)

/-- A slot that is taken starts without an event and without bytes. -/
theorem invariant_accepted {s : State} (h : Invariant s) (i : Nat) :
    Invariant (next s (.accepted i)) := by
  have hFresh : Invariant (s.setSession i {}) := by
    apply h.setSession
    · simp [FlagAnswered]
    · simp [BytesCovered]
  exact ⟨hFresh.answered, hFresh.covered⟩

/-- The producer that has enqueued bytes is about to test the flag. -/
theorem invariant_enqueue {s : State} {i : Nat} {bytes : List UInt8} (h : Invariant s)
    (hEnabled : enabled s (.enqueue i bytes)) : Invariant (next s (.enqueue i bytes)) := by
  have hProducer : (s.sessions i).producer = .idle := hEnabled.2
  apply h.setSession
  · intro hFlag
    have hAnswered := h.answered i (by simpa using hFlag)
    simpa [hProducer] using hAnswered
  · simp [BytesCovered]

/-- A post raises the flag and queues an event, unless the flag is up already.
-/
theorem invariant_post {s : State} (h : Invariant s) (i : Nat) : Invariant (next s (.post i)) := by
  constructor
  · intro j hFlag
    by_cases hj : j = i
    · simp [next, hj]
    · have hAnswered := h.answered j (by simpa [next, Function.update_of_ne hj] using hFlag)
      simp only [next, setSession_sessions, setSession_server, Function.update_of_ne hj,
        List.mem_append]
      tauto
  · intro j
    by_cases hj : j = i
    · exact Or.inr (Or.inl (by simp [next, hj]))
    · have hCovered := h.covered j
      simp only [BytesCovered, next, setSession_sessions, setSession_server,
        Function.update_of_ne hj, List.mem_append] at hCovered ⊢
      tauto

/-- The server takes an event up. -/
theorem invariant_dequeueEvent {s : State} (h : Invariant s) (hEnabled : enabled s .dequeueEvent) :
    Invariant (next s .dequeueEvent) := by
  obtain ⟨hServer, hQueue⟩ := hEnabled
  obtain ⟨i, rest, hEq⟩ := List.exists_cons_of_ne_nil hQueue
  simp only [next, hEq]
  constructor
  · intro j hFlag
    have hAnswered := h.answered j hFlag
    simp only [hEq, List.mem_cons, hServer, reduceCtorEq, exists_false,
      or_false] at hAnswered
    simp only [ServerPc.maxDequeue.injEq]
    tauto
  · intro j
    have hCovered := h.covered j
    simp only [BytesCovered, claimed, hEq, List.mem_cons, hServer, reduceCtorEq,
      or_false] at hCovered
    simp only [BytesCovered, claimed, ServerPc.maxDequeue.injEq]
    tauto

theorem invariant_maxDequeue {s : State} (h : Invariant s) (hEnabled : enabled s .maxDequeue) :
    Invariant (next s .maxDequeue) := by
  obtain ⟨i, hServer⟩ := hEnabled
  simp only [next, hServer]
  apply h.setServer
  · intro j hFlag
    have hAnswered := h.answered j hFlag
    simp only [hServer, ServerPc.maxDequeue.injEq, reduceCtorEq, exists_false,
      or_false] at hAnswered
    rcases hAnswered with hQueued | hPost | rfl
    · exact Or.inl hQueued
    · exact Or.inr (Or.inl hPost)
    · exact Or.inr (Or.inr (Or.inr ⟨_, rfl⟩))
  · simp [claimed, hServer]
  · intro j hj
    obtain rfl : i = j := by simpa [hServer] using hj
    simp [claimed]

theorem invariant_unsetEvent {s : State} (h : Invariant s) (hEnabled : enabled s .unsetEvent) :
    Invariant (next s .unsetEvent) := by
  obtain ⟨i, m, hServer⟩ := hEnabled
  simp only [next, hServer]
  constructor
  · intro j hFlag
    by_cases hj : j = i
    · simp [hj] at hFlag
    · have hAnswered := h.answered j (by simpa [Function.update_of_ne hj] using hFlag)
      have hOther : ∀ m', s.server ≠ .unsetEvent j m' := by
        intro m' hEq
        simp only [hServer, ServerPc.unsetEvent.injEq] at hEq
        exact hj hEq.1.symm
      simpa [hServer, hOther, Function.update_of_ne hj, Ne.symm hj] using hAnswered
  · intro j
    have hCovered := h.covered j
    by_cases hj : j = i
    · subst hj
      simpa [BytesCovered, claimed, hServer] using hCovered
    · simpa [BytesCovered, claimed, hServer, Function.update_of_ne hj] using hCovered

theorem invariant_test {s : State} (h : Invariant s) (hEnabled : enabled s .test) :
    Invariant (next s .test) := by
  obtain ⟨i, m, hServer⟩ := hEnabled
  simp only [next, hServer]
  apply h.setServer
  · intro j hFlag
    have hAnswered := h.answered j hFlag
    simp only [hServer, reduceCtorEq, exists_false, or_false] at hAnswered
    tauto
  · intro j
    by_cases hm : m = 0
    · simp [claimed, hServer, hm]
    · simp [claimed, hServer, hm]
  · simp [hServer]

/-- What is received is taken off the bytes claimed. -/
theorem invariant_receive {s : State} {count : Nat} (h : Invariant s)
    (hEnabled : enabled s (.receive count)) : Invariant (next s (.receive count)) := by
  obtain ⟨i, m, hServer, _, _, _⟩ := hEnabled
  simp only [next, hServer]
  constructor
  · intro j hFlag
    have hFlag' : (s.sessions j).hasEvent = true := by
      by_cases hj : j = i
      · subst hj
        simpa using hFlag
      · simpa [Function.update_of_ne hj] using hFlag
    have hAnswered := h.answered j hFlag'
    simp only [hServer, reduceCtorEq, exists_false, or_false] at hAnswered
    by_cases hj : j = i
    · subst hj
      simp only [setSession_sessions, Function.update_self]
      tauto
    · simp only [setSession_sessions, Function.update_of_ne hj]
      tauto
  · intro j
    have hCovered := h.covered j
    simp only [BytesCovered, hServer, reduceCtorEq, or_false] at hCovered
    by_cases hj : j = i
    · subst hj
      rcases hCovered with hBytes | hQueued | hBusy
      · left
        simp only [claimed, if_true] at hBytes
        by_cases hLast : m - count = 0
        · simp only [setSession_sessions, Function.update_self, List.length_drop, hLast,
            if_true, claimed]
          omega
        · simp only [setSession_sessions, Function.update_self, List.length_drop, hLast,
            if_false, claimed, if_true]
          omega
      · exact Or.inr (Or.inl hQueued)
      · exact Or.inr (Or.inr (Or.inl (by simpa using hBusy)))
    · simp only [claimed, if_neg (Ne.symm hj)] at hCovered
      simp only [BytesCovered, setSession_sessions, Function.update_of_ne hj]
      rcases hCovered with hBytes | hQueued | hBusy
      · exact Or.inl (hBytes.trans (Nat.zero_le _))
      · exact Or.inr (Or.inl hQueued)
      · exact Or.inr (Or.inr (Or.inl hBusy))

/-- Each step of either side keeps the invariant, the flag test in its one
bad window apart. -/
theorem invariant_next {s : State} {step : Step} (hEnabled : enabled s step)
    (hTimely : Timely s step) (h : Invariant s) : Invariant (next s step) := by
  cases step with
  | accepted i => exact invariant_accepted h i
  | disconnected i => exact ⟨h.answered, h.covered⟩
  | enqueue i bytes => exact invariant_enqueue h hEnabled
  | setEvent i => exact invariant_setEvent h hEnabled (hTimely i rfl)
  | post i => exact invariant_post h i
  | dequeueEvent => exact invariant_dequeueEvent h hEnabled
  | maxDequeue => exact invariant_maxDequeue h hEnabled
  | unsetEvent => exact invariant_unsetEvent h hEnabled
  | test => exact invariant_test h hEnabled
  | receive count => exact invariant_receive h hEnabled

/-- No wakeup is lost in a run whose producers never test the flag in the
window between the server's count and its clearing of the flag with bytes
that the count has missed. -/
theorem noLostWakeup_of_timely (steps : List Step) (hAdmits : machine.Admits start steps)
    (hTimely : machine.Meets Timely start steps) : machine.Always NoLostWakeup start steps :=
  (hAdmits.and hTimely).always (fun _ _ h => invariant_next h.1 h.2) invariant_start
    fun _ => Invariant.noLostWakeup

/-- One uncontended round, with the second enqueue just after the flag is
cleared: its event is posted and the first handler leaves its byte behind. -/
theorem noLostWakeup_late_enqueue :
    machine.Always NoLostWakeup start
      [.accepted 0, .enqueue 0 [1], .setEvent 0, .post 0, .dequeueEvent, .maxDequeue,
        .unsetEvent, .enqueue 0 [2], .setEvent 0, .test, .receive 1] := by
  apply noLostWakeup_of_timely
  · simp [machine, enabled, next, start]
  · simp [machine, Timely, Unseen, next, start]

/-- The condition is exact: after a flag test in the window the server's own
steps end at the event queue with the missed bytes still in the fifo. -/
theorem lost_of_unseen {s : State} {i : Nat} (hEnabled : enabled s (.setEvent i))
    (hUnseen : Unseen s i) :
    ∃ rest : List Step, (∀ step ∈ rest, step = .unsetEvent ∨ step = .test ∨ ∃ n, step = .receive n) ∧
      machine.Admits s (.setEvent i :: rest) ∧
      ¬ NoLostWakeup (machine.run s (.setEvent i :: rest)) := by
  obtain ⟨hLive, hProducer⟩ := hEnabled
  obtain ⟨m, hServer, hFlag, hQueue, hMore⟩ := hUnseen
  by_cases hm : m = 0
  · subst hm
    refine ⟨[.unsetEvent, .test], by simp, ?_, ?_⟩
    · simp [machine, enabled, next, hLive, hProducer, hServer, hFlag]
    · intro hNone
      have hEmpty := hNone (by simp [machine, next, hServer, hFlag]) i
        (by simpa [machine, next, hServer, hFlag] using hLive)
        (by simpa [machine, next, hServer, hFlag] using hQueue)
        (by simp [machine, next, hServer, hFlag])
      have hNil : (s.sessions i).rxFifo = [] := by
        simpa [machine, next, hServer, hFlag] using hEmpty
      simp [hNil] at hMore
  · refine ⟨[.unsetEvent, .test, .receive m], by simp, ?_, ?_⟩
    · simpa [machine, enabled, next, hLive, hProducer, hServer, hFlag, hm]
        using ⟨Nat.pos_of_ne_zero hm, hMore.le⟩
    · intro hNone
      have hEmpty := hNone (by simp [machine, next, hServer, hFlag, hm]) i
        (by simpa [machine, next, hServer, hFlag, hm] using hLive)
        (by simpa [machine, next, hServer, hFlag, hm] using hQueue)
        (by simp [machine, next, hServer, hFlag, hm])
      have hDrop : (s.sessions i).rxFifo.drop m = [] := by
        simpa [machine, next, hServer, hFlag, hm] using hEmpty
      have hLength := congrArg List.length hDrop
      simp only [List.length_drop, List.length_nil] at hLength
      omega

/-- The same enqueue one step earlier, before the flag is cleared, is never
announced: its byte stays in the fifo with nothing to wake the server. -/
theorem not_noLostWakeup :
    ¬ ∀ steps, machine.Admits start steps → machine.Always NoLostWakeup start steps := by
  intro hAll
  have hLost := (hAll [.accepted 0, .enqueue 0 [1], .setEvent 0, .post 0, .dequeueEvent,
    .maxDequeue, .enqueue 0 [2], .setEvent 0, .unsetEvent, .test, .receive 1]
    (by simp [machine, enabled, next, start])).last
  have hEmpty := hLost (by simp [machine, next, start]) 0 (by simp [machine, next, start])
    (by simp [machine, next, start]) (by simp [machine, next, start])
  simp [machine, next, start] at hEmpty

end DpdkPerf.UdpEcho.Wakeup
