import DpdkPerf.UdpEcho.Control

/-! The session pool and the handle hash stay consistent over any sequence
of control messages, with handles repeated and slots recycled at will. -/
namespace DpdkPerf.UdpEcho

variable (unformatUri : List UInt8 → Option SessionEndpoint) (isConnected : Bool)
  (connectUri : List UInt8) (memory : Nat → AppSession) (fifos : Address → Nat)

/-- The pool indices that BOUND and CONNECTED messages created, in order. -/
def createdSlots (ds : List Delivery) : List Nat :=
  SlotMap.taken (ds.map Delivery.op)

/-- An ACCEPTED message does not reuse a handle that is still mapped. -/
def NewHandle (utm : UdpEchoMain) (d : Delivery) : Prop :=
  ∀ mp, d.event = .accepted mp → utm.sessionIndexByVppHandles.lookup mp.handle = none

variable {unformatUri isConnected connectUri memory fifos}

/-- A handle is new to the store if it is new to the server. -/
theorem newKey_iff_newHandle (utm : UdpEchoMain) (d : Delivery) :
    utm.store.NewKey d.op ↔ NewHandle utm d := by
  rcases d with ⟨event, slot⟩
  cases event with
  | bound mp =>
      simp only [Delivery.op, NewHandle, reduceCtorEq, false_implies, implies_true, iff_true]
      split_ifs <;> trivial
  | accepted mp =>
      simp only [Delivery.op, NewHandle, SessionEvent.accepted.injEq, forall_eq']
      rfl
  | connected mp =>
      simp only [Delivery.op, NewHandle, reduceCtorEq, false_implies, implies_true, iff_true]
      split_ifs <;> trivial
  | disconnected mp => simp [Delivery.op, NewHandle, SlotMap.NewKey]
  | unhandled eventType => simp [Delivery.op, NewHandle, SlotMap.NewKey]

/-- The store is sound after any messages. -/
theorem sound_of_admits {ds : List Delivery}
    (h : (control unformatUri).Admits (.initial isConnected connectUri memory fifos) ds) :
    SlotMap.Sound (createdSlots ds)
      ((control unformatUri).run (.initial isConnected connectUri memory fifos) ds).store := by
  rw [store_run]
  exact SlotMap.sound_run (store_admits h)

/-- With handles that are new each time no slot is lost. -/
theorem balanced_of_admits {ds : List Delivery}
    (h : (control unformatUri).Admits (.initial isConnected connectUri memory fifos) ds)
    (hNew : (control unformatUri).Meets NewHandle
      (.initial isConnected connectUri memory fifos) ds) :
    SlotMap.Balanced (createdSlots ds)
      ((control unformatUri).run (.initial isConnected connectUri memory fifos) ds).store := by
  rw [store_run]
  apply SlotMap.balanced_run (store_admits h)
  exact (Machine.meets_map (store_next unformatUri) _ ds).mpr
    (hNew.mono fun utm d => (newKey_iff_newHandle utm d).mpr)

/-- The slot a DISCONNECTED message frees is the one its handle names, and
the rest of the live slots stay. -/
theorem live_disconnected (utm : UdpEchoMain) (mp : SessionDisconnectedMsg) :
    (sessionDisconnectedHandler utm mp).1.sessions.live =
      match utm.sessionIndexByVppHandles.lookup mp.handle with
      | none => utm.sessions.live
      | some i => utm.sessions.live.erase i := by
  unfold sessionDisconnectedHandler
  cases utm.sessionIndexByVppHandles.lookup mp.handle <;> rfl

/-- After any sequence of control messages every mapped handle names a live
slot, no two name the same one, and none names a slot of a BOUND or CONNECTED
session. So the next DISCONNECTED frees at most a live slot that some
ACCEPTED created, and while handles are not reused the live sessions are
exactly the created ones and the mapped ones. -/
theorem session_store_consistent (ds : List Delivery)
    (hAdmits : (control unformatUri).Admits (.initial isConnected connectUri memory fifos) ds) :
    let utm := (control unformatUri).run (.initial isConnected connectUri memory fifos) ds
    (∀ handle i, utm.sessionIndexByVppHandles.lookup handle = some i → i ∈ utm.sessions.live) ∧
    (∀ handle handle' i, utm.sessionIndexByVppHandles.lookup handle = some i →
      utm.sessionIndexByVppHandles.lookup handle' = some i → handle = handle') ∧
    (∀ i ∈ createdSlots ds, ∀ handle, utm.sessionIndexByVppHandles.lookup handle ≠ some i) ∧
    (∀ mp, (sessionDisconnectedHandler utm mp).1.sessions.live = utm.sessions.live ∨
      ∃ i ∈ utm.sessions.live, i ∉ createdSlots ds ∧
        (sessionDisconnectedHandler utm mp).1.sessions.live = utm.sessions.live.erase i) ∧
    ((control unformatUri).Meets NewHandle (.initial isConnected connectUri memory fifos) ds →
      utm.sessions.live.card =
        (createdSlots ds).length + utm.sessionIndexByVppHandles.keys.length) := by
  intro utm
  have hSound := sound_of_admits hAdmits
  refine ⟨fun _ _ h => hSound.live_of_lookup h, fun _ _ _ h h' => hSound.key_unique h h',
    fun _ hMem => hSound.unmapped_of_pinned hMem, fun mp => ?_, balanced_of_admits hAdmits⟩
  rw [live_disconnected]
  cases hLookup : utm.sessionIndexByVppHandles.lookup mp.handle with
  | none => exact Or.inl rfl
  | some i =>
      refine Or.inr ⟨i, hSound.live_of_lookup hLookup, fun hMem => ?_, rfl⟩
      exact hSound.unmapped_of_pinned hMem mp.handle hLookup

/-- A listener, a client whose handle is taken over by a second ACCEPTED,
and a DISCONNECTED that frees only the later of the two sessions. -/
theorem session_store_consistent_reused_handle :
    let accepted : SessionAcceptedMsg := ⟨7, 1, 16, 17, 4096, [], 1, 80⟩
    let ds : List Delivery :=
      [⟨.bound ⟨0, 8, 9, 4096, [], 1, 80⟩, 0⟩, ⟨.accepted accepted, 1⟩, ⟨.accepted accepted, 2⟩,
        ⟨.disconnected ⟨7, 1⟩, 3⟩]
    ∀ i ∈ createdSlots ds, ∀ handle,
      ((control fun _ => none).run (.initial false [] (fun _ => {}) fun _ => 0)
        ds).sessionIndexByVppHandles.lookup handle ≠ some i := by
  intro accepted ds
  refine (session_store_consistent ds ?_).2.2.1
  simp [ds, accepted, control, handleMqEvent, UdpEchoMain.initial, sessionBoundHandler,
    sessionAcceptedHandler, sessionDisconnectedHandler, setClientSessionIndex]

end DpdkPerf.UdpEcho
