import DpdkPerf.Machine.SlotTenure
import DpdkPerf.UdpEcho.Control

/-! Start-up of the udp-echo client: the wait of `client_test` for its session
and the call of `client_send_data` behind it. The wait has three exits, and
which of them was taken is not looked at afterwards. The clock is an `f64`, so
the time waited is a difference that is rounded. -/
namespace DpdkPerf.UdpEcho

/-- Where `client_test` stands once the connect request is sent. -/
inductive ClientPc where
  /-- `svm_msg_q_sub (utm->our_event_queue, ...)`. -/
  | waitSession
  /-- `client_send_data (utm, sessionIndex)`. -/
  | sendData (sessionIndex : Nat)
  deriving DecidableEq, Repr

/-- The index `client_test` passes to `client_send_data`. -/
def UdpEchoMain.sendIndex (utm : UdpEchoMain) : Nat :=
  if utm.cutThroughSessionIndex ≠ noSession then utm.cutThroughSessionIndex
  else utm.connectedSession

/-- The test of the wait loop. -/
def UdpEchoMain.afterTest (utm : UdpEchoMain) : ClientPc :=
  if utm.sessions.live.card ≠ 1 ∧ utm.state ≠ .failed then .waitSession
  else .sendData utm.sendIndex

/-- Times are in seconds, and `now` is the last reading of the clock. -/
structure Client where
  utm : UdpEchoMain
  startTime : Float
  now : Float
  pc : ClientPc

/-- What the client holds when it is attached and has sent its request. -/
def attachedClient (isConnected : Bool) (connectUri : List UInt8) (memory : Nat → AppSession)
    (fifos : Address → Nat) : UdpEchoMain :=
  { UdpEchoMain.initial isConnected connectUri memory fifos with state := .attached }

def Client.initial (utm : UdpEchoMain) (startTime : Float) : Client where
  utm := utm
  startTime := startTime
  now := startTime
  pc := utm.afterTest

/-- A message of the event queue, and the clock when it has been handled. -/
structure ClientTurn where
  delivery : Delivery
  now : Float
  deriving DecidableEq

/-- `timeout = 100.0`. -/
def clientTimeout : Float := 100.0

/-- `clib_time_now (&utm->clib_time) - start_time >= timeout`. -/
def ClientTurn.TimedOut (startTime : Float) (t : ClientTurn) : Prop :=
  t.now - startTime ≥ clientTimeout

instance (startTime : Float) (t : ClientTurn) : Decidable (t.TimedOut startTime) :=
  inferInstanceAs (Decidable (_ ≥ _))

def Client.next (unformatUri : List UInt8 → Option SessionEndpoint) (c : Client) (t : ClientTurn) :
    Client :=
  let utm := (handleMqEvent unformatUri c.utm t.delivery).1
  { c with
    utm := utm
    now := t.now
    pc := if t.TimedOut c.startTime then .sendData utm.sendIndex else utm.afterTest }

/-- The wait of `client_test`, with a clock that does not go back. -/
def clientTest (unformatUri : List UInt8 → Option SessionEndpoint) :
    Machine Client ClientTurn Unit where
  enabled c t := c.pc = .waitSession ∧ c.now ≤ t.now ∧
    t.delivery.slot ∉ c.utm.sessions.live ∧ t.delivery.slot < noSession
  next := Client.next unformatUri
  output _ _ := ()

/-- The handler of the message gets past both of its error returns. -/
def SessionConnectedMsg.Completes (unformatUri : List UInt8 → Option SessionEndpoint)
    (connectUri : List UInt8) (mp : SessionConnectedMsg) : Prop :=
  mp.retval = 0 ∧ (mp.ctRxFifo ≠ 0 ∨ unformatUri connectUri ≠ none)

/-- The session in slot `i` is one that a CONNECTED message created whose
handler completed: no later message took the slot. -/
def CreatedByConnected (unformatUri : List UInt8 → Option SessionEndpoint)
    (connectUri : List UInt8) (past : List Delivery) (i : Nat) : Prop :=
  ∃ before d after mp, past = before ++ d :: after ∧ d.event = .connected mp ∧
    mp.Completes unformatUri connectUri ∧ d.slot = i ∧ ∀ later ∈ after, later.op.slot ≠ some i

/-- The message is a CONNECTED one whose handler returns early: the connect
has failed, or the connect URI cannot be parsed. -/
def ClientTurn.FailsConnect (unformatUri : List UInt8 → Option SessionEndpoint)
    (connectUri : List UInt8) (t : ClientTurn) : Prop :=
  ∃ mp, t.delivery.event = .connected mp ∧ ¬ mp.Completes unformatUri connectUri

/-- A call of `client_send_data` with session index `i`, in the state `c` that
these turns have led to: the session is live, a completed CONNECTED message
created it, the state is `STATE_READY`, and the way there went neither through
a failed connect or an unparsable URI nor through the timeout. -/
structure SendsSafely (unformatUri : List UInt8 → Option SessionEndpoint) (start c : Client)
    (past : List ClientTurn) (i : Nat) : Prop where
  live : i ∈ c.utm.sessions.live
  created : CreatedByConnected unformatUri start.utm.connectUri (past.map (·.delivery)) i
  ready : c.utm.state = .ready
  connected : ∀ t ∈ past, ¬ t.FailsConnect unformatUri start.utm.connectUri
  inTime : ∀ t ∈ past, ¬ t.TimedOut start.startTime

/-- Whenever `client_send_data` is called, it is called safely. -/
def SendsToConnected (unformatUri : List UInt8 → Option SessionEndpoint) (start : Client)
    (turns : List ClientTurn) : Prop :=
  ∀ before, before <+: turns → ∀ i, ((clientTest unformatUri).run start before).pc = .sendData i →
    SendsSafely unformatUri start ((clientTest unformatUri).run start before) before i

/-- A message that leaves a client without a session as it is. -/
def SessionEvent.Ignored : SessionEvent → Prop
  | .connected mp => mp.retval ≠ 0
  | .disconnected _ | .unhandled _ => True
  | .bound _ | .accepted _ => False

/-- The client goes on to wait after this message. -/
def ClientTurn.KeepsWaiting (startTime : Float) (t : ClientTurn) : Prop :=
  t.delivery.event.Ignored ∧ ¬ t.TimedOut startTime

/-- The message is a CONNECTED one whose handler completes. -/
def ClientTurn.Connects (unformatUri : List UInt8 → Option SessionEndpoint)
    (connectUri : List UInt8) (t : ClientTurn) : Prop :=
  ∃ mp, t.delivery.event = .connected mp ∧ mp.Completes unformatUri connectUri

variable {unformatUri : List UInt8 → Option SessionEndpoint} {utm : UdpEchoMain}
  {startTime : Float} {t : ClientTurn}

/-- Nothing is live, no handle is mapped and nothing has failed. -/
structure UdpEchoMain.Sessionless (utm : UdpEchoMain) : Prop where
  live : utm.sessions.live = ∅
  unmapped : ∀ handle, utm.sessionIndexByVppHandles.lookup handle = none
  cutThrough : utm.cutThroughSessionIndex = noSession
  state : utm.state = .attached

/-- An attached client has no session yet. -/
theorem sessionless_attachedClient (isConnected : Bool) (connectUri : List UInt8)
    (memory : Nat → AppSession) (fifos : Address → Nat) :
    (attachedClient isConnected connectUri memory fifos).Sessionless where
  live := rfl
  unmapped _ := AList.lookup_empty _
  cutThrough := rfl
  state := rfl

/-- A client without a session waits. -/
theorem UdpEchoMain.Sessionless.afterTest (h : utm.Sessionless) : utm.afterTest = .waitSession := by
  unfold UdpEchoMain.afterTest
  have hCard : utm.sessions.live.card ≠ 1 := by
    rw [h.live]
    decide
  have hState : utm.state ≠ .failed := by
    rw [h.state]
    decide
  rw [if_pos ⟨hCard, hState⟩]

theorem UdpEchoMain.Sessionless.handleMqEvent_ignored (h : utm.Sessionless) {d : Delivery}
    (hIgnored : d.event.Ignored) : (handleMqEvent unformatUri utm d).1 = utm := by
  rcases d with ⟨event, slot⟩
  cases event with
  | bound mp => exact hIgnored.elim
  | accepted mp => exact hIgnored.elim
  | connected mp =>
      show sessionConnectedHandler unformatUri utm slot mp = utm
      unfold sessionConnectedHandler
      exact if_pos hIgnored
  | disconnected mp =>
      show (sessionDisconnectedHandler utm mp).1 = utm
      unfold sessionDisconnectedHandler
      rw [h.unmapped mp.handle]
  | unhandled eventType => rfl

/-- A message that is not ignored ends the wait: it takes the first slot or
fails the bind. -/
theorem UdpEchoMain.Sessionless.afterTest_handled (h : utm.Sessionless) {d : Delivery}
    (hHandled : ¬ d.event.Ignored) :
    (handleMqEvent unformatUri utm d).1.afterTest =
      .sendData (handleMqEvent unformatUri utm d).1.sendIndex := by
  have hTest : (handleMqEvent unformatUri utm d).1.sessions.live.card = 1 ∨
      (handleMqEvent unformatUri utm d).1.state = .failed := by
    have hStore := congrArg SlotMap.live (store_next unformatUri utm d)
    have hLive : utm.store.live = ∅ := h.live
    have hLive' : (handleMqEvent unformatUri utm d).1.sessions.live =
        (utm.store.apply d.op).live := hStore
    have hTaken : (insert d.slot (∅ : Finset Nat)).card = 1 := rfl
    rw [hLive']
    rcases d with ⟨event, slot⟩
    cases event with
    | bound mp =>
        by_cases hRetval : mp.retval = 0
        · left
          simp only [Delivery.op, if_pos hRetval, SlotMap.apply, hLive]
          exact hTaken
        · right
          simp only [handleMqEvent, sessionBoundHandler, if_pos hRetval]
    | accepted mp =>
        left
        simp only [Delivery.op, SlotMap.apply, hLive]
        exact hTaken
    | connected mp =>
        have hRetval : mp.retval = 0 := not_not.mp hHandled
        left
        simp only [Delivery.op, if_pos hRetval, SlotMap.apply, hLive]
        exact hTaken
    | disconnected mp => exact absurd trivial hHandled
    | unhandled eventType => exact absurd trivial hHandled
  unfold UdpEchoMain.afterTest
  rw [if_neg]
  rintro ⟨hCard, hState⟩
  exact hTest.elim hCard hState

theorem next_eq (unformatUri : List UInt8 → Option SessionEndpoint) (c : Client) (t : ClientTurn) :
    Client.next unformatUri c t =
      { c with
        utm := (handleMqEvent unformatUri c.utm t.delivery).1
        now := t.now
        pc := if t.TimedOut c.startTime then
            .sendData (handleMqEvent unformatUri c.utm t.delivery).1.sendIndex
          else (handleMqEvent unformatUri c.utm t.delivery).1.afterTest } :=
  rfl

/-- What one message does to a client that waits without a session. -/
theorem next_cases (unformatUri : List UInt8 → Option SessionEndpoint) {c : Client}
    (h : c.utm.Sessionless) (t : ClientTurn) :
    (t.KeepsWaiting c.startTime ∧
      Client.next unformatUri c t = { c with now := t.now, pc := .waitSession }) ∨
    (¬ t.KeepsWaiting c.startTime ∧
      Client.next unformatUri c t =
        { c with
          utm := (handleMqEvent unformatUri c.utm t.delivery).1
          now := t.now
          pc := .sendData (handleMqEvent unformatUri c.utm t.delivery).1.sendIndex }) := by
  by_cases hIgnored : t.delivery.event.Ignored
  · have hUtm : (handleMqEvent unformatUri c.utm t.delivery).1 = c.utm :=
      h.handleMqEvent_ignored hIgnored
    by_cases hTime : t.TimedOut c.startTime
    · right
      refine ⟨fun hKeeps => hKeeps.2 hTime, ?_⟩
      rw [next_eq, if_pos hTime]
    · left
      refine ⟨⟨hIgnored, hTime⟩, ?_⟩
      rw [next_eq, hUtm, if_neg hTime, h.afterTest]
  · right
    refine ⟨fun hKeeps => hIgnored hKeeps.1, ?_⟩
    rw [next_eq, h.afterTest_handled hIgnored, ite_self]

/-- Every run either waits on, with nothing done yet, or has just left the
wait by its last message. -/
theorem clientTest_cases (h : utm.Sessionless) {turns : List ClientTurn}
    (hAdmits : (clientTest unformatUri).Admits (.initial utm startTime) turns) :
    ((∀ t ∈ turns, t.KeepsWaiting startTime) ∧
      ((clientTest unformatUri).run (.initial utm startTime) turns).utm = utm ∧
      ((clientTest unformatUri).run (.initial utm startTime) turns).startTime = startTime ∧
      ((clientTest unformatUri).run (.initial utm startTime) turns).pc = .waitSession) ∨
    ∃ before last, turns = before ++ [last] ∧ (∀ t ∈ before, t.KeepsWaiting startTime) ∧
      ¬ last.KeepsWaiting startTime ∧ last.delivery.slot < noSession ∧
      ((clientTest unformatUri).run (.initial utm startTime) turns).utm =
        (handleMqEvent unformatUri utm last.delivery).1 ∧
      ((clientTest unformatUri).run (.initial utm startTime) turns).pc =
        .sendData (handleMqEvent unformatUri utm last.delivery).1.sendIndex := by
  refine hAdmits.invariant_inputs (fun past (c : Client) =>
    ((∀ t ∈ past, t.KeepsWaiting startTime) ∧ c.utm = utm ∧ c.startTime = startTime ∧
      c.pc = .waitSession) ∨
    ∃ before last, past = before ++ [last] ∧ (∀ t ∈ before, t.KeepsWaiting startTime) ∧
      ¬ last.KeepsWaiting startTime ∧ last.delivery.slot < noSession ∧
      c.utm = (handleMqEvent unformatUri utm last.delivery).1 ∧
      c.pc = .sendData (handleMqEvent unformatUri utm last.delivery).1.sendIndex) ?_ ?_
  · rintro past c t ⟨hPc, -, -, hSlot⟩ (⟨hPast, hUtm, hStart, -⟩ | ⟨_, _, -, -, -, -, -, hSent⟩)
    · have hCases := next_cases unformatUri (hUtm ▸ h) t
      rw [hStart, hUtm] at hCases
      rcases hCases with ⟨hKeeps, hNext⟩ | ⟨hLeaves, hNext⟩
      · left
        refine ⟨List.forall_mem_append.mpr ⟨hPast, List.forall_mem_singleton.mpr hKeeps⟩, ?_⟩
        show (Client.next unformatUri c t).utm = utm ∧
          (Client.next unformatUri c t).startTime = startTime ∧
          (Client.next unformatUri c t).pc = .waitSession
        rw [hNext]
        exact ⟨rfl, rfl, rfl⟩
      · right
        refine ⟨past, t, rfl, hPast, hLeaves, hSlot, ?_⟩
        show (Client.next unformatUri c t).utm = _ ∧ (Client.next unformatUri c t).pc = _
        rw [hNext]
        exact ⟨rfl, rfl⟩
    · rw [hPc] at hSent
      cases hSent
  · left
    exact ⟨fun _ hMem => absurd hMem List.not_mem_nil, rfl, rfl, h.afterTest⟩

/-- What a CONNECTED message whose handler completes leaves behind. -/
theorem connectedHandler_completes (h : utm.Sessionless) {slot : Nat} (hSlot : slot < noSession)
    {mp : SessionConnectedMsg} (hCompletes : mp.Completes unformatUri utm.connectUri) :
    (sessionConnectedHandler unformatUri utm slot mp).sendIndex = slot ∧
      slot ∈ (sessionConnectedHandler unformatUri utm slot mp).sessions.live ∧
      (sessionConnectedHandler unformatUri utm slot mp).state = .ready := by
  obtain ⟨hRetval, hSession⟩ := hCompletes
  unfold sessionConnectedHandler UdpEchoMain.sendIndex
  rw [if_neg (not_not.mpr hRetval)]
  by_cases hCutThrough : mp.ctRxFifo ≠ 0
  · simp only [if_pos hCutThrough, if_pos hSlot.ne]
    exact ⟨trivial, Finset.mem_insert_self _ _, trivial⟩
  · simp only [if_neg hCutThrough]
    obtain ⟨sep, hUri⟩ := Option.ne_none_iff_exists'.mp (hSession.resolve_left hCutThrough)
    have hUri' : unformatUri (setClientSessionIndex { utm with sessions := utm.sessions.get slot }
        mp.serverRxFifo mp.serverTxFifo slot).connectUri = some sep := hUri
    simp only [hUri']
    refine ⟨?_, Finset.mem_insert_self _ _, trivial⟩
    exact if_neg (not_not.mpr h.cutThrough)

/-- A message that keeps the client waiting connects it to nothing. -/
theorem ClientTurn.KeepsWaiting.not_connects {connectUri : List UInt8}
    (h : t.KeepsWaiting startTime) : ¬ t.Connects unformatUri connectUri := by
  rintro ⟨mp, hEvent, hCompletes⟩
  have hIgnored := h.1
  rw [hEvent] at hIgnored
  exact hIgnored hCompletes.1

/-- A message that completes a connect does not fail one. -/
theorem ClientTurn.Connects.not_fails {connectUri : List UInt8}
    (h : t.Connects unformatUri connectUri) : ¬ t.FailsConnect unformatUri connectUri := by
  obtain ⟨mp, hEvent, hCompletes⟩ := h
  rintro ⟨mp', hEvent', hFails⟩
  rw [hEvent] at hEvent'
  obtain rfl := SessionEvent.connected.inj hEvent'
  exact hFails hCompletes

/-- The client sends as it should exactly if every message either keeps it
waiting or is a CONNECTED one whose handler completes in time, with no failed
connect in the run. -/
theorem sendsToConnected_iff (isConnected : Bool) (connectUri : List UInt8)
    (memory : Nat → AppSession) (fifos : Address → Nat) (turns : List ClientTurn)
    (hAdmits : (clientTest unformatUri).Admits
      (.initial (attachedClient isConnected connectUri memory fifos) startTime) turns) :
    SendsToConnected unformatUri
        (.initial (attachedClient isConnected connectUri memory fifos) startTime) turns ↔
      ∀ t ∈ turns, t.KeepsWaiting startTime ∨
        t.Connects unformatUri connectUri ∧ ¬ t.TimedOut startTime ∧
          ∀ u ∈ turns, ¬ u.FailsConnect unformatUri connectUri := by
  have hStart := sessionless_attachedClient isConnected connectUri memory fifos
  constructor
  · intro hSends t hMem
    rcases clientTest_cases hStart hAdmits with
      ⟨hWaits, -⟩ | ⟨before, last, rfl, hBefore, -, -, -, hCall⟩
    · exact Or.inl (hWaits t hMem)
    rcases List.mem_append.mp hMem with hOld | hLast
    · exact Or.inl (hBefore t hOld)
    right
    obtain rfl : t = last := List.mem_singleton.mp hLast
    have hSafe := hSends _ (List.prefix_refl _) _ hCall
    refine ⟨?_, hSafe.inTime t hMem, hSafe.connected⟩
    obtain ⟨past, d, after, mp, hSplit, hEvent, hCompletes, -, -⟩ := hSafe.created
    have hCreator : d ∈ (before ++ [t]).map (·.delivery) := by
      rw [hSplit]
      exact List.mem_append_right _ List.mem_cons_self
    obtain ⟨turn, hTurn, rfl⟩ := List.mem_map.mp hCreator
    have hConnects : turn.Connects unformatUri connectUri := ⟨mp, hEvent, hCompletes⟩
    rcases List.mem_append.mp hTurn with hOld | hLast
    · exact absurd hConnects (hBefore turn hOld).not_connects
    · exact List.mem_singleton.mp hLast ▸ hConnects
  · rintro hTurns before ⟨rest, rfl⟩ i hCall
    rcases clientTest_cases hStart (Machine.admits_append .. |>.mp hAdmits).1 with
      ⟨-, -, -, hWaits⟩ | ⟨earlier, last, rfl, hEarlier, hLeaves, hSlot, hUtm, hSent⟩
    · rw [hWaits] at hCall
      cases hCall
    have hMem : last ∈ earlier ++ [last] ++ rest :=
      List.mem_append_left _ (List.mem_append_right _ (List.mem_singleton_self last))
    obtain ⟨⟨mp, hEvent, hCompletes⟩, hInTime, hNoFailure⟩ := (hTurns last hMem).resolve_left hLeaves
    have hHandler : (handleMqEvent unformatUri (attachedClient isConnected connectUri memory fifos)
        last.delivery).1 = sessionConnectedHandler unformatUri
          (attachedClient isConnected connectUri memory fifos) last.delivery.slot mp := by
      unfold handleMqEvent
      rw [hEvent]
    obtain ⟨hIndex, hLive, hReady⟩ := connectedHandler_completes hStart hSlot hCompletes
    rw [hHandler] at hUtm hSent
    rw [hSent, hIndex] at hCall
    obtain rfl : last.delivery.slot = i := ClientPc.sendData.inj hCall
    constructor
    case live =>
      rw [hUtm]
      exact hLive
    case created =>
      refine ⟨earlier.map (·.delivery), last.delivery, [], mp, ?_, hEvent, hCompletes, rfl,
        fun _ hLater => absurd hLater List.not_mem_nil⟩
      rw [List.map_append, List.map_singleton]
    case ready =>
      rw [hUtm]
      exact hReady
    case connected =>
      exact fun t ht => hNoFailure t (List.mem_append_left _ ht)
    case inTime =>
      intro t ht
      rcases List.mem_append.mp ht with hOld | hLast
      · exact (hEarlier t hOld).2
      · rw [List.mem_singleton.mp hLast]
        exact hInTime

/-- An event of another kind, and then a connect that completes as a
cut-through session. -/
def cutThroughSecond : List ClientTurn :=
  [⟨⟨.unhandled 5, 0⟩, 1⟩, ⟨⟨.connected ⟨0, 16, 17, 4096, 18, [], 1, 80⟩, 0⟩, 2⟩]

/-- A message that is ignored, and then a connect that completes. -/
theorem sendsToConnected_second :
    (∀ t ∈ cutThroughSecond, t.KeepsWaiting 0 ∨
        t.Connects (fun _ => none) [] ∧ ¬ t.TimedOut 0 ∧
          ∀ u ∈ cutThroughSecond, ¬ u.FailsConnect (fun _ => none) []) ∧
      SendsToConnected (fun _ => none)
        (.initial (attachedClient true [] (fun _ => {}) fun _ => 0) 0) cutThroughSecond := by
  have hAdmits : (clientTest fun _ => none).Admits
      (.initial (attachedClient true [] (fun _ => {}) fun _ => 0) 0) cutThroughSecond := by
    rw [cutThroughSecond, Machine.admits_cons, Machine.admits_cons]
    exact ⟨⟨by decide, by decide +kernel, by decide, by decide⟩,
      ⟨by decide +kernel, by decide +kernel, by decide +kernel, by decide⟩, Machine.admits_nil _⟩
  have hConnects : ClientTurn.Connects (fun _ => none) []
      ⟨⟨.connected ⟨0, 16, 17, 4096, 18, [], 1, 80⟩, 0⟩, 2⟩ := ⟨_, rfl, rfl, Or.inl (by decide)⟩
  have hTurns : ∀ t ∈ cutThroughSecond, t.KeepsWaiting 0 ∨
      t.Connects (fun _ => none) [] ∧ ¬ t.TimedOut 0 ∧
        ∀ u ∈ cutThroughSecond, ¬ u.FailsConnect (fun _ => none) [] := by
    unfold cutThroughSecond
    simp only [List.forall_mem_cons]
    refine ⟨Or.inl ⟨trivial, by decide +kernel⟩,
      Or.inr ⟨hConnects, by decide +kernel, ?_, hConnects.not_fails, ?_⟩, ?_⟩
    · rintro ⟨mp, hEvent, -⟩
      cases hEvent
    · exact fun _ h => absurd h List.not_mem_nil
    · exact fun _ h => absurd h List.not_mem_nil
  exact ⟨hTurns, (sendsToConnected_iff true [] (fun _ => {}) (fun _ => 0) _ hAdmits).mpr hTurns⟩

/-- The connect fails, and the wait runs into its timeout: 100.1 less 0.1 is
rounded to 100. -/
theorem not_sendsToConnected :
    ¬ ∀ turns : List ClientTurn,
      (clientTest fun _ => none).Admits
        (.initial (attachedClient true [] (fun _ => {}) fun _ => 0) 0.1) turns →
      SendsToConnected (fun _ => none)
        (.initial (attachedClient true [] (fun _ => {}) fun _ => 0) 0.1) turns := by
  intro hAll
  let turn : ClientTurn := ⟨⟨.connected ⟨-1, 16, 17, 4096, 0, [], 1, 80⟩, 0⟩, 100.1⟩
  have hAdmits : (clientTest fun _ => none).Admits
      (.initial (attachedClient true [] (fun _ => {}) fun _ => 0) 0.1) [turn] := by
    rw [Machine.admits_cons]
    exact ⟨⟨by decide, by decide +kernel, by decide, by decide⟩, Machine.admits_nil _⟩
  have hLive := (hAll [turn] hAdmits _ (List.prefix_refl _) 0 (by decide +kernel)).live
  exact absurd hLive (by decide +kernel)

end DpdkPerf.UdpEcho
