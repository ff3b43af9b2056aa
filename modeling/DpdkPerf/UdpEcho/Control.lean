import DpdkPerf.UdpEcho.Session

/-! The control handlers of udp-echo and `handle_mq_event`. A handler that
calls `pool_get` is given the slot it returns, which the allocator chooses
among the slots that are not live. -/
namespace DpdkPerf.UdpEcho

open SlotMap (Op)

/-- `rx_fifo->client_session_index = tx_fifo->client_session_index = i`. -/
def setClientSessionIndex (utm : UdpEchoMain) (rxFifo txFifo : Address) (i : Nat) : UdpEchoMain :=
  { utm with clientSessionIndex :=
      Function.update (Function.update utm.clientSessionIndex rxFifo i) txFifo i }

/-- The record is cleared and then filled, with no word for `vpp_evt_q`. -/
def sessionAcceptedHandler (utm : UdpEchoMain) (slot : Nat) (mp : SessionAcceptedMsg) :
    UdpEchoMain × List Post :=
  let session : AppSession :=
    { sessionIndex := slot
      rxFifo := mp.serverRxFifo
      txFifo := mp.serverTxFifo
      transport := { rmtIp := mp.ip, isIp4 := mp.isIp4, rmtPort := mp.port } }
  let utm := setClientSessionIndex utm mp.serverRxFifo mp.serverTxFifo slot
  ({ utm with
      vppEventQueue := mp.vppEventQueueAddress
      sessions := (utm.sessions.get slot).set slot session
      sessionIndexByVppHandles := utm.sessionIndexByVppHandles.insert mp.handle slot
      state := .ready },
    [⟨mp.vppEventQueueAddress, .accepted mp.handle mp.context 0⟩])

/-- The reply is built after `pool_put`, from the record the freed slot
still holds. -/
def sessionDisconnectedHandler (utm : UdpEchoMain) (mp : SessionDisconnectedMsg) :
    UdpEchoMain × List Post :=
  match utm.sessionIndexByVppHandles.lookup mp.handle with
  | none => (utm, [])
  | some i =>
      ({ utm with
          sessionIndexByVppHandles := utm.sessionIndexByVppHandles.erase mp.handle
          sessions := utm.sessions.put i },
        [⟨(utm.sessions.elt i).vppEvtQ, .disconnected mp.handle mp.context 0⟩])

/-- The record is not cleared here: a field that is not written keeps what
the slot held. A URI that cannot be parsed fails after the slot is taken. -/
def sessionConnectedHandler (unformatUri : List UInt8 → Option SessionEndpoint)
    (utm : UdpEchoMain) (slot : Nat) (mp : SessionConnectedMsg) : UdpEchoMain :=
  if mp.retval ≠ 0 then utm
  else
    let session : AppSession :=
      { utm.sessions.elt slot with
        sessionIndex := slot, rxFifo := mp.serverRxFifo, txFifo := mp.serverTxFifo }
    let utm := setClientSessionIndex { utm with sessions := utm.sessions.get slot }
      mp.serverRxFifo mp.serverTxFifo slot
    if mp.ctRxFifo ≠ 0 then
      { utm with
        sessions := utm.sessions.set slot
          { session with vppEvtQ := mp.vppEventQueueAddress, isDgram := false }
        cutThroughSessionIndex := slot
        state := .ready }
    else
      let transport : Transport :=
        { session.transport with lclIp := mp.lclIp, isIp4 := mp.isIp4, lclPort := mp.lclPort }
      let utm := { utm with
        connectedSession := slot
        vppEventQueue := mp.vppEventQueueAddress }
      match unformatUri utm.connectUri with
      | none =>
          { utm with
            sessions := utm.sessions.set slot { session with transport := transport }
            state := .failed }
      | some sep =>
          { utm with
            sessions := utm.sessions.set slot
              { session with
                transport := { transport with rmtIp := sep.ip, rmtPort := sep.port }
                isDgram := !utm.isConnected }
            state := .ready }

/-- `session_index` and `is_dgram` are left as the clearing leaves them. -/
def sessionBoundHandler (utm : UdpEchoMain) (slot : Nat) (mp : SessionBoundMsg) : UdpEchoMain :=
  if mp.retval ≠ 0 then { utm with state := .failed }
  else
    let session : AppSession :=
      { rxFifo := mp.rxFifo
        txFifo := mp.txFifo
        transport := { lclIp := mp.lclIp, isIp4 := mp.lclIsIp4, lclPort := mp.lclPort }
        vppEvtQ := mp.vppEvtQ }
    let utm := setClientSessionIndex utm mp.rxFifo mp.txFifo slot
    { utm with
      sessions := (utm.sessions.get slot).set slot session
      state := if utm.isConnected then .bound else .ready }

/-- A control message and the slot `pool_get` returns, should it be called. -/
structure Delivery where
  event : SessionEvent
  slot : Nat
  deriving DecidableEq, Repr

def handleMqEvent (unformatUri : List UInt8 → Option SessionEndpoint) (utm : UdpEchoMain)
    (d : Delivery) : UdpEchoMain × List Post :=
  match d.event with
  | .bound mp => (sessionBoundHandler utm d.slot mp, [])
  | .accepted mp => sessionAcceptedHandler utm d.slot mp
  | .connected mp => (sessionConnectedHandler unformatUri utm d.slot mp, [])
  | .disconnected mp => sessionDisconnectedHandler utm mp
  | .unhandled _ => (utm, [])

/-- Control messages handled one after the other. -/
def control (unformatUri : List UInt8 → Option SessionEndpoint) :
    Machine UdpEchoMain Delivery (List Post) where
  enabled utm d := d.slot ∉ utm.sessions.live
  next utm d := (handleMqEvent unformatUri utm d).1
  output utm d := (handleMqEvent unformatUri utm d).2

/-- The session store: which slots are live and which handle names which. -/
def UdpEchoMain.store (utm : UdpEchoMain) : SlotMap UInt64 Nat :=
  ⟨utm.sessions.live, utm.sessionIndexByVppHandles⟩

/-- What a message asks of the session store. Only BOUND and CONNECTED
messages with retval 0 create a session. -/
def Delivery.op (d : Delivery) : Op UInt64 Nat :=
  match d.event with
  | .bound mp => if mp.retval = 0 then .take d.slot else .skip
  | .accepted mp => .assign mp.handle d.slot
  | .connected mp => if mp.retval = 0 then .take d.slot else .skip
  | .disconnected mp => .release mp.handle
  | .unhandled _ => .skip

variable {unformatUri : List UInt8 → Option SessionEndpoint} {utm : UdpEchoMain} {d : Delivery}

/-- A bound session takes a slot and is filed under no handle. -/
theorem store_boundHandler (slot : Nat) (mp : SessionBoundMsg) :
    (sessionBoundHandler utm slot mp).store =
      utm.store.apply (if mp.retval = 0 then .take slot else .skip) := by
  unfold sessionBoundHandler
  split_ifs <;> first | rfl | contradiction

theorem store_connectedHandler (slot : Nat) (mp : SessionConnectedMsg) :
    (sessionConnectedHandler unformatUri utm slot mp).store =
      utm.store.apply (if mp.retval = 0 then .take slot else .skip) := by
  unfold sessionConnectedHandler
  by_cases hRetval : mp.retval = 0
  · simp only [hRetval, ne_eq, not_true_eq_false, if_false, if_true]
    by_cases hCutThrough : mp.ctRxFifo = 0
    · simp only [hCutThrough, not_true_eq_false, if_false]
      split <;> rfl
    · simp only [hCutThrough, not_false_eq_true, if_true]
      rfl
  · simp only [hRetval, ne_eq, not_false_eq_true, if_true, if_false]
    rfl

/-- A disconnect releases the slot of its handle. -/
theorem store_disconnectedHandler (mp : SessionDisconnectedMsg) :
    (sessionDisconnectedHandler utm mp).1.store = utm.store.apply (.release mp.handle) := by
  cases hLookup : utm.sessionIndexByVppHandles.lookup mp.handle with
  | none =>
      rw [SlotMap.apply_release_none (by exact hLookup)]
      simp [sessionDisconnectedHandler, hLookup]
  | some i =>
      rw [SlotMap.apply_release (by exact hLookup)]
      simp only [sessionDisconnectedHandler, hLookup]
      rfl

/-- The handlers refine the slot map: on the store, handling a message is
the operation it asks for. -/
theorem store_next (unformatUri : List UInt8 → Option SessionEndpoint) (utm : UdpEchoMain)
    (d : Delivery) :
    ((control unformatUri).next utm d).store = SlotMap.machine.next utm.store d.op := by
  rcases d with ⟨event, slot⟩
  cases event with
  | bound mp => exact store_boundHandler slot mp
  | accepted mp => rfl
  | connected mp => exact store_connectedHandler slot mp
  | disconnected mp => exact store_disconnectedHandler mp
  | unhandled eventType => rfl

theorem store_run (utm : UdpEchoMain) (ds : List Delivery) :
    ((control unformatUri).run utm ds).store =
      SlotMap.machine.run utm.store (ds.map Delivery.op) :=
  Machine.run_map (store_next unformatUri) utm ds

theorem fresh_of_enabled (hEnabled : (control unformatUri).enabled utm d) :
    SlotMap.machine.enabled utm.store d.op := by
  have hSlot : d.slot ∉ utm.store.live := hEnabled
  rcases d with ⟨event, slot⟩
  cases event with
  | bound mp =>
      simp only [Delivery.op]
      split_ifs
      · exact hSlot
      · trivial
  | accepted mp => exact hSlot
  | connected mp =>
      simp only [Delivery.op]
      split_ifs
      · exact hSlot
      · trivial
  | disconnected mp => trivial
  | unhandled eventType => trivial

theorem store_admits {ds : List Delivery} (h : (control unformatUri).Admits utm ds) :
    SlotMap.machine.Admits utm.store (ds.map Delivery.op) :=
  (Machine.meets_map (store_next unformatUri) utm ds).mpr
    (h.mono fun _ _ hEnabled => fresh_of_enabled hEnabled)

/-- A handler writes the record of its own slot only. -/
theorem elt_next_of_ne {i : Nat} (h : i ≠ d.slot) :
    ((control unformatUri).next utm d).sessions.elt i = utm.sessions.elt i := by
  rcases d with ⟨event, slot⟩
  cases event with
  | bound mp =>
      simp only [control, handleMqEvent, sessionBoundHandler]
      by_cases hRetval : mp.retval ≠ 0
      · rw [if_pos hRetval]
      · rw [if_neg hRetval]
        exact Function.update_of_ne h _ _
  | accepted mp => exact Function.update_of_ne h _ _
  | connected mp =>
      simp only [control, handleMqEvent, sessionConnectedHandler]
      split_ifs
      · rfl
      · exact Function.update_of_ne h _ _
      · split <;> exact Function.update_of_ne h _ _
  | disconnected mp =>
      simp only [control, handleMqEvent, sessionDisconnectedHandler]
      split <;> rfl
  | unhandled eventType => rfl

end DpdkPerf.UdpEcho
