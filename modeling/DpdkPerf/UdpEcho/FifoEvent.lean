import DpdkPerf.Machine.SlotTenure
import DpdkPerf.UdpEcho.Control

/-! The receive loop of `server_handle_event_queue` with both kinds of events.
An RX event names its session by the pool index alone, and the pool hands an
index out again once its session is gone. -/
namespace DpdkPerf.UdpEcho

/-- A call on a fifo. `app_recv_dgram_raw` and `app_recv_stream_raw` are told
apart by the flag. -/
inductive FifoCall where
  | maxDequeue (fifo : Address)
  | unsetEvent (fifo : Address)
  | recvRaw (fifo : Address) (isDgram : Bool) (maxTransfer : UInt32)
  | send (fifo : Address) (offset : UInt32) (bytes : Int32)
  | setEvent (fifo : Address)
  /-- `tx_fifo->master_session_index`, for the event that is sent to VPP. -/
  | masterSessionIndex (fifo : Address)
  deriving DecidableEq, Repr

def FifoCall.fifo : FifoCall → Address
  | .maxDequeue fifo | .unsetEvent fifo | .recvRaw fifo _ _ | .send fifo _ _ | .setEvent fifo
  | .masterSessionIndex fifo => fifo

/-- What `app_send` returns, and `time_to_stop` at the test after it. -/
structure SendAnswer where
  rv : Int32
  timeToStop : Bool
  deriving DecidableEq, Repr

/-- One round of the read loop: what the read returns, the rounds of the send
loop, whether the event of the tx fifo was clear, and `time_to_stop`. -/
structure ReadAnswer where
  nRead : Int32
  sends : List SendAnswer
  setEvent : Bool
  timeToStop : Bool
  deriving DecidableEq, Repr

/-- The length that `vec_validate (utm->rx_buf, 64 << 10)` makes. -/
def rxBufLen : UInt32 := 64 * 1024 + 1

/-- The send loop, with the `n_read` it ends with. It is left unfinished
where the answers end. -/
def sendLoop (txFifo : Address) (offset : UInt32) (nRead : Int32) :
    List SendAnswer → Int32 × List FifoCall
  | [] => (nRead, [])
  | a :: rest =>
      let call := FifoCall.send txFifo offset nRead
      let nRead' := if 0 < a.rv then nRead - a.rv else nRead
      let offset' := if 0 < a.rv then offset + a.rv.toUInt32 else offset
      if (a.rv ≤ 0 ∨ 0 < nRead') ∧ ¬ a.timeToStop then
        let (nRead'', calls) := sendLoop txFifo offset' nRead' rest
        (nRead'', call :: calls)
      else (nRead', [call])

/-- Reflect what was read, and add an event if there was none. -/
def reflect (session : AppSession) (a : ReadAnswer) : Int32 × List FifoCall :=
  let (nRead, calls) := sendLoop session.txFifo 0 a.nRead a.sends
  (nRead, calls ++ .setEvent session.txFifo ::
    (if a.setEvent then [.masterSessionIndex session.txFifo] else []))

def readLoop (haveReturn : Bool) (session : AppSession) (maxDequeue : UInt32) :
    List ReadAnswer → List FifoCall
  | [] => []
  | a :: rest =>
      let maxTransfer := min rxBufLen maxDequeue
      let maxDequeue' := if 0 < a.nRead then maxDequeue - a.nRead.toUInt32 else maxDequeue
      let (nRead, calls) := if haveReturn ∧ 0 < a.nRead then reflect session a else (a.nRead, [])
      .recvRaw session.rxFifo session.isDgram maxTransfer :: calls ++
        (if (nRead < 0 ∨ 0 < maxDequeue') ∧ ¬ a.timeToStop then
          readLoop haveReturn session maxDequeue' rest
        else [])

/-- The fifo calls of the handler, in order. -/
def serverHandleFifoEventRx (haveReturn : Bool) (utm : UdpEchoMain) (sessionIndex : Nat)
    (maxDequeue : UInt32) (answers : List ReadAnswer) : List FifoCall :=
  let session := utm.sessions.elt sessionIndex
  .maxDequeue session.rxFifo :: .unsetEvent session.rxFifo ::
    (if maxDequeue = 0 then [] else readLoop haveReturn session maxDequeue answers)

/-- An RX event. `posted` is not part of the event: it says for which session
VPP posted it, as the position of the message that created the session. -/
structure RxEvent where
  sessionIndex : Nat
  posted : Nat
  maxDequeue : UInt32
  answers : List ReadAnswer
  deriving DecidableEq, Repr

inductive QueueEvent where
  | control (d : Delivery)
  | rx (e : RxEvent)
  deriving DecidableEq, Repr

/-- `handled` keeps the control messages dequeued so far. -/
structure ServerQueue where
  utm : UdpEchoMain
  handled : List Delivery

def ServerQueue.initial (isConnected : Bool) (memory : Nat → AppSession)
    (fifos : Address → Nat) : ServerQueue :=
  ⟨.initial isConnected [] memory fifos, []⟩

/-- The session of the event was created by the message `d`. -/
def ServerQueue.Posted (s : ServerQueue) (e : RxEvent) (d : Delivery) : Prop :=
  s.handled[e.posted]? = some d ∧ d.op.slot = some e.sessionIndex

def serverQueue (unformatUri : List UInt8 → Option SessionEndpoint) (haveReturn : Bool) :
    Machine ServerQueue QueueEvent (List FifoCall) where
  enabled s
    | .control d => d.slot ∉ s.utm.sessions.live
    | .rx e => ∃ d, s.Posted e d
  next s
    | .control d => ⟨(handleMqEvent unformatUri s.utm d).1, s.handled ++ [d]⟩
    | .rx _ => s
  output s
    | .control _ => []
    | .rx e => serverHandleFifoEventRx haveReturn s.utm e.sessionIndex e.maxDequeue e.answers

/-- The fifos of the session a message creates. -/
def SessionEvent.rxFifo : SessionEvent → Address
  | .bound mp => mp.rxFifo
  | .accepted mp => mp.serverRxFifo
  | .connected mp => mp.serverRxFifo
  | _ => 0

def SessionEvent.txFifo : SessionEvent → Address
  | .bound mp => mp.txFifo
  | .accepted mp => mp.serverTxFifo
  | .connected mp => mp.serverTxFifo
  | _ => 0

/-- The control messages after the one that created the event's session. -/
def ServerQueue.since (s : ServerQueue) (e : RxEvent) : List Delivery :=
  s.handled.drop (e.posted + 1)

/-- The session the event was posted for is live: its slot is, and no other
session has taken the slot. -/
def ServerQueue.Live (s : ServerQueue) (e : RxEvent) : Prop :=
  e.sessionIndex ∈ s.utm.sessions.live ∧ ∀ later ∈ s.since e, later.op.slot ≠ some e.sessionIndex

/-- The handler touches only fifos of the session the event was posted for,
and that session is live. -/
def RxSafe (haveReturn : Bool) (s : ServerQueue) : QueueEvent → Prop
  | .control _ => True
  | .rx e => ∀ d, s.Posted e d →
      ∀ call ∈ serverHandleFifoEventRx haveReturn s.utm e.sessionIndex e.maxDequeue e.answers,
        s.Live e ∧ (call.fifo = d.event.rxFifo ∨ call.fifo = d.event.txFifo)

/-- No DISCONNECTED that names the event's session has been dequeued yet. -/
def NotDisconnected (s : ServerQueue) : QueueEvent → Prop
  | .control _ => True
  | .rx e => ∀ d, s.Posted e d → ¬ d.op.GivenBack ((s.since e).map Delivery.op)

/-- The send loop works on the tx fifo only. -/
theorem sendLoop_fifo (txFifo : Address) (offset : UInt32) (nRead : Int32)
    (answers : List SendAnswer) :
    ∀ call ∈ (sendLoop txFifo offset nRead answers).2, call.fifo = txFifo := by
  induction answers generalizing offset nRead with
  | nil => exact fun _ hMem => absurd hMem List.not_mem_nil
  | cons a rest ih =>
      unfold sendLoop
      dsimp only
      generalize (if 0 < a.rv then nRead - a.rv else nRead) = nRead'
      split
      · exact List.forall_mem_cons.mpr ⟨rfl, ih _ _⟩
      · exact List.forall_mem_singleton.mpr rfl

theorem reflect_fifo (session : AppSession) (a : ReadAnswer) :
    ∀ call ∈ (reflect session a).2, call.fifo = session.txFifo := by
  unfold reflect
  dsimp only
  refine List.forall_mem_append.mpr ⟨sendLoop_fifo _ _ _ _, List.forall_mem_cons.mpr ⟨rfl, ?_⟩⟩
  split
  · exact List.forall_mem_singleton.mpr rfl
  · exact fun _ hMem => absurd hMem List.not_mem_nil

/-- The receive loop works on the two fifos of its session only. -/
theorem readLoop_fifo (haveReturn : Bool) (session : AppSession) (maxDequeue : UInt32)
    (answers : List ReadAnswer) :
    ∀ call ∈ readLoop haveReturn session maxDequeue answers,
      call.fifo = session.rxFifo ∨ call.fifo = session.txFifo := by
  induction answers generalizing maxDequeue with
  | nil => exact fun _ hMem => absurd hMem List.not_mem_nil
  | cons a rest ih =>
      unfold readLoop
      dsimp only
      generalize (if 0 < a.nRead then maxDequeue - a.nRead.toUInt32 else maxDequeue) = maxDequeue'
      have hReflected : ∀ call ∈ (if haveReturn ∧ 0 < a.nRead then reflect session a
          else (a.nRead, [])).2, call.fifo = session.txFifo := by
        split
        · exact reflect_fifo session a
        · exact fun _ hMem => absurd hMem List.not_mem_nil
      generalize (if haveReturn ∧ 0 < a.nRead then reflect session a
        else (a.nRead, [])) = reflected at hReflected ⊢
      refine List.forall_mem_append.mpr ⟨List.forall_mem_cons.mpr ⟨Or.inl rfl, ?_⟩, ?_⟩
      · exact fun call hMem => Or.inr (hReflected call hMem)
      · split
        · exact ih _
        · exact fun _ hMem => absurd hMem List.not_mem_nil

/-- Every call is on one of the two fifos of the record at the index. -/
theorem serverHandleFifoEventRx_fifo (haveReturn : Bool) (utm : UdpEchoMain) (sessionIndex : Nat)
    (maxDequeue : UInt32) (answers : List ReadAnswer) :
    ∀ call ∈ serverHandleFifoEventRx haveReturn utm sessionIndex maxDequeue answers,
      call.fifo = (utm.sessions.elt sessionIndex).rxFifo ∨
        call.fifo = (utm.sessions.elt sessionIndex).txFifo := by
  refine List.forall_mem_cons.mpr ⟨Or.inl rfl, List.forall_mem_cons.mpr ⟨Or.inl rfl, ?_⟩⟩
  split
  · exact fun _ hMem => absurd hMem List.not_mem_nil
  · exact readLoop_fifo haveReturn _ maxDequeue answers

/-- The first call is made whatever the fifo holds. -/
theorem maxDequeue_mem (haveReturn : Bool) (utm : UdpEchoMain) (sessionIndex : Nat)
    (maxDequeue : UInt32) (answers : List ReadAnswer) :
    .maxDequeue (utm.sessions.elt sessionIndex).rxFifo ∈
      serverHandleFifoEventRx haveReturn utm sessionIndex maxDequeue answers :=
  List.mem_cons_self

variable {unformatUri : List UInt8 → Option SessionEndpoint} {haveReturn : Bool}
  {utm : UdpEchoMain} {isConnected : Bool} {memory : Nat → AppSession} {fifos : Address → Nat}

theorem enabled_control {s : ServerQueue} {d : Delivery} (h : d.slot ∉ s.utm.sessions.live) :
    (serverQueue unformatUri haveReturn).enabled s (.control d) :=
  h

/-- The messages that create a session, in the slot the allocator chose. -/
theorem creates_cases {d : Delivery} {i : Nat} (h : d.op.slot = some i) :
    (∃ mp, d = ⟨.bound mp, i⟩ ∧ mp.retval = 0) ∨ (∃ mp, d = ⟨.accepted mp, i⟩) ∨
      ∃ mp, d = ⟨.connected mp, i⟩ ∧ mp.retval = 0 := by
  rcases d with ⟨event, slot⟩
  cases event with
  | bound mp =>
      simp only [Delivery.op] at h
      split_ifs at h with hRetval
      · obtain rfl := Option.some.inj h
        exact .inl ⟨mp, rfl, hRetval⟩
      · cases h
  | accepted mp =>
      obtain rfl := Option.some.inj h
      exact .inr (.inl ⟨mp, rfl⟩)
  | connected mp =>
      simp only [Delivery.op] at h
      split_ifs at h with hRetval
      · obtain rfl := Option.some.inj h
        exact .inr (.inr ⟨mp, rfl, hRetval⟩)
      · cases h
  | disconnected mp => cases h
  | unhandled eventType => cases h

theorem slot_of_op {d : Delivery} {i : Nat} (h : d.op.slot = some i) : d.slot = i := by
  obtain ⟨mp, rfl, -⟩ | ⟨mp, rfl⟩ | ⟨mp, rfl, -⟩ := creates_cases h
  · rfl
  · rfl
  · rfl

/-- The record of a session is created with the fifos of its message. -/
theorem fifos_created {d : Delivery} {i : Nat} (h : d.op.slot = some i) :
    (((control unformatUri).next utm d).sessions.elt i).rxFifo = d.event.rxFifo ∧
      (((control unformatUri).next utm d).sessions.elt i).txFifo = d.event.txFifo := by
  obtain ⟨mp, rfl, hRetval⟩ | ⟨mp, rfl⟩ | ⟨mp, rfl, hRetval⟩ := creates_cases h
  · simp [control, handleMqEvent, sessionBoundHandler, hRetval, SessionEvent.rxFifo,
      SessionEvent.txFifo]
  · simp [control, handleMqEvent, sessionAcceptedHandler, SessionEvent.rxFifo,
      SessionEvent.txFifo]
  · simp only [control, handleMqEvent, sessionConnectedHandler, hRetval, ne_eq,
      not_true_eq_false, if_false, SessionEvent.rxFifo, SessionEvent.txFifo]
    by_cases hCutThrough : mp.ctRxFifo = 0
    · simp only [hCutThrough, not_true_eq_false, if_false]
      split <;> simp
    · simp only [hCutThrough, not_false_eq_true, if_true]
      simp

/-- The slot of a session is its own exactly until a DISCONNECTED names it. -/
theorem holds_iff {before after : List Delivery} {d : Delivery} {i : Nat}
    (hAdmits : (control unformatUri).Admits (.initial isConnected [] memory fifos)
      (before ++ d :: after)) (hSlot : d.op.slot = some i) :
    (i ∈ ((control unformatUri).run (.initial isConnected [] memory fifos)
          (before ++ d :: after)).sessions.live ∧ ∀ later ∈ after, later.op.slot ≠ some i) ↔
      ¬ d.op.GivenBack (after.map Delivery.op) := by
  have hStore := store_admits hAdmits
  rw [List.map_append, List.map_cons, Machine.admits_append, Machine.admits_cons] at hStore
  obtain ⟨hBefore, hFresh, hAfter⟩ := hStore
  rw [← SlotMap.holds_iff_not_givenBack (SlotMap.sound_run hBefore) hFresh hSlot hAfter]
  unfold SlotMap.Holds
  rw [List.forall_mem_map]
  refine and_congr_left fun _ => ?_
  show i ∈ (UdpEchoMain.store _).live ↔ _
  rw [store_run, List.map_append, List.map_cons, Machine.run_append, Machine.run_cons]
  rfl

/-- While it is its own, the record keeps the session's fifos. -/
theorem fifos_kept {before after : List Delivery} {d : Delivery} {i : Nat}
    (hAdmits : (control unformatUri).Admits (.initial isConnected [] memory fifos)
      (before ++ d :: after)) (hSlot : d.op.slot = some i)
    (hKept : ¬ d.op.GivenBack (after.map Delivery.op)) :
    (((control unformatUri).run (.initial isConnected [] memory fifos)
        (before ++ d :: after)).sessions.elt i).rxFifo = d.event.rxFifo ∧
      (((control unformatUri).run (.initial isConnected [] memory fifos)
        (before ++ d :: after)).sessions.elt i).txFifo = d.event.txFifo := by
  induction after using List.reverseRecOn with
  | nil =>
      rw [Machine.run_append]
      exact fifos_created hSlot
  | append_singleton after later ih =>
      have hSplit : before ++ d :: (after ++ [later]) = (before ++ d :: after) ++ [later] := by simp
      rw [hSplit, Machine.admits_append, Machine.admits_cons] at hAdmits
      obtain ⟨hPast, hEnabled, -⟩ := hAdmits
      have hKeptPast : ¬ d.op.GivenBack (after.map Delivery.op) := by
        intro hBack
        rw [List.map_append] at hKept
        exact hKept (hBack.append _)
      have hLive := ((holds_iff hPast hSlot).mpr hKeptPast).1
      have hOther : i ≠ later.slot := by
        rintro rfl
        exact hEnabled hLive
      rw [hSplit, Machine.run_append, Machine.run_cons, Machine.run_nil, elt_next_of_ne hOther]
      exact ih hPast hKeptPast

/-- The pool is what the control messages dequeued so far have made of it. -/
structure ServerQueue.Reached (unformatUri : List UInt8 → Option SessionEndpoint)
    (start : UdpEchoMain) (s : ServerQueue) : Prop where
  admits : (control unformatUri).Admits start s.handled
  utm : s.utm = (control unformatUri).run start s.handled

/-- Every event of the queue leads on from what was reached. -/
theorem ServerQueue.Reached.next {start : UdpEchoMain} {s : ServerQueue}
    (h : s.Reached unformatUri start) {event : QueueEvent}
    (hEnabled : (serverQueue unformatUri haveReturn).enabled s event) :
    ((serverQueue unformatUri haveReturn).next s event).Reached unformatUri start := by
  cases event with
  | rx e => exact h
  | control d =>
      obtain ⟨hAdmits, hUtm⟩ := h
      refine ⟨(Machine.admits_append ..).mpr ⟨hAdmits, ?_⟩, ?_⟩
      · rw [Machine.admits_cons, ← hUtm]
        exact ⟨hEnabled, Machine.admits_nil _⟩
      · show (handleMqEvent unformatUri s.utm d).1 =
          (control unformatUri).run start (s.handled ++ [d])
        rw [Machine.run_append, ← hUtm]
        rfl

/-- An event is handled on its own live session exactly if no DISCONNECTED
has named that session. -/
theorem ServerQueue.Reached.rxSafe_iff {s : ServerQueue}
    (h : s.Reached unformatUri (.initial isConnected [] memory fifos)) (event : QueueEvent)
    (hEnabled : (serverQueue unformatUri haveReturn).enabled s event) :
    RxSafe haveReturn s event ↔ NotDisconnected s event := by
  cases event with
  | control d => exact Iff.rfl
  | rx e =>
      obtain ⟨d, hPosted⟩ := hEnabled
      have hUnique : ∀ d', s.Posted e d' → d' = d := by
        intro d' hPosted'
        exact Option.some.inj (hPosted'.1.symm.trans hPosted.1)
      obtain ⟨hAt, hSlot⟩ := hPosted
      obtain ⟨hLength, hElt⟩ := List.getElem?_eq_some_iff.mp hAt
      have hSplit : s.handled = s.handled.take e.posted ++ d :: s.since e := by
        rw [ServerQueue.since, ← hElt, ← List.drop_eq_getElem_cons hLength,
          List.take_append_drop]
      have hAdmits := h.admits
      have hUtm := h.utm
      rw [hSplit] at hAdmits hUtm
      have hHolds := holds_iff hAdmits hSlot
      rw [← hUtm] at hHolds
      constructor
      · intro hSafe d' hPosted'
        obtain rfl := hUnique d' hPosted'
        exact hHolds.mp (hSafe d' hPosted' _ (maxDequeue_mem ..)).1
      · intro hNot d' hPosted' call hCall
        obtain rfl := hUnique d' hPosted'
        obtain ⟨hRx, hTx⟩ := fifos_kept hAdmits hSlot (hNot d' hPosted')
        rw [← hUtm] at hRx hTx
        refine ⟨hHolds.mpr (hNot d' hPosted'), ?_⟩
        rw [← hRx, ← hTx]
        exact serverHandleFifoEventRx_fifo haveReturn s.utm e.sessionIndex e.maxDequeue e.answers
          call hCall

/-- RX events are handled on the live session they were posted for exactly
if none of them is dequeued after the DISCONNECTED of that session. -/
theorem rxSafe_iff_notDisconnected (events : List QueueEvent)
    (hAdmits : (serverQueue unformatUri haveReturn).Admits
      (.initial isConnected memory fifos) events) :
    (serverQueue unformatUri haveReturn).Meets (RxSafe haveReturn)
        (.initial isConnected memory fifos) events ↔
      (serverQueue unformatUri haveReturn).Meets NotDisconnected
        (.initial isConnected memory fifos) events := by
  have hStart : (ServerQueue.initial isConnected memory fifos).Reached unformatUri
      (.initial isConnected [] memory fifos) := ⟨Machine.admits_nil _, rfl⟩
  constructor
  · intro hSafe
    exact (hAdmits.and hSafe).meets_of_invariant (fun s event hEvent h => h.next hEvent.1)
      (fun s event hEvent h => (h.rxSafe_iff event hEvent.1).mp hEvent.2) hStart
  · intro hNot
    exact (hAdmits.and hNot).meets_of_invariant (fun s event hEvent h => h.next hEvent.1)
      (fun s event hEvent h => (h.rxSafe_iff event hEvent.1).mpr hEvent.2) hStart

/-- A session receives and is then disconnected. -/
theorem rxSafe_before_disconnect :
    (serverQueue (fun _ => none) false).Meets (RxSafe false)
      (.initial false (fun _ => {}) fun _ => 0)
      [.control ⟨.accepted ⟨7, 1, 16, 17, 4096, [], 1, 80⟩, 0⟩,
        .rx ⟨0, 0, 5, [⟨5, [], false, false⟩]⟩, .control ⟨.disconnected ⟨7, 1⟩, 1⟩] := by
  rw [rxSafe_iff_notDisconnected]
  · simp only [Machine.meets_cons, Machine.meets_nil, and_true]
    refine ⟨trivial, ?_, trivial⟩
    rintro d ⟨hAt, -⟩
    obtain rfl := Option.some.inj hAt
    exact id
  · simp only [Machine.admits_cons, Machine.admits_nil, and_true]
    exact ⟨enabled_control (by decide), ⟨_, rfl, rfl⟩, enabled_control (by decide)⟩

/-- An RX event that is dequeued when its session is gone and its index
belongs to another: the handler reads the other session's fifo. -/
theorem not_rxSafe :
    ¬ ∀ events : List QueueEvent,
      (serverQueue (fun _ => none) true).Admits (.initial false (fun _ => {}) fun _ => 0) events →
      (serverQueue (fun _ => none) true).Meets (RxSafe true)
        (.initial false (fun _ => {}) fun _ => 0) events := by
  intro hAll
  let first : Delivery := ⟨.accepted ⟨7, 1, 16, 17, 4096, [], 1, 80⟩, 0⟩
  let second : Delivery := ⟨.accepted ⟨8, 2, 20, 21, 4096, [], 1, 81⟩, 0⟩
  let past : List QueueEvent :=
    [.control first, .control ⟨.disconnected ⟨9, 1⟩, 1⟩, .control second]
  have hAdmits : (serverQueue (fun _ => none) true).Admits
      (.initial false (fun _ => {}) fun _ => 0) (past ++ [.rx ⟨0, 0, 5, []⟩]) := by
    simp only [past, List.cons_append, List.nil_append, Machine.admits_cons, Machine.admits_nil,
      and_true]
    exact ⟨enabled_control (by decide), enabled_control (by decide), enabled_control (by decide),
      ⟨first, rfl, rfl⟩⟩
  have hMeets := ((Machine.meets_append ..).mp (hAll _ hAdmits)).2
  have hSafe := ((Machine.meets_cons ..).mp hMeets).1 first ⟨rfl, rfl⟩ (.maxDequeue 20)
    List.mem_cons_self
  exact absurd hSafe.2 (by decide)

end DpdkPerf.UdpEcho
