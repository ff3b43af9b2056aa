import DpdkPerf.UdpEcho.Control

/-! Which replies the control handlers post, and to which event queue. The
queue of a disconnect reply is a field of the session record. -/
namespace DpdkPerf.UdpEcho

/-- The ACCEPTED message that created the session a handle is mapped to:
the last one with that handle, unless a DISCONNECTED came after it. -/
def creator (handle : UInt64) : List Delivery → Option SessionAcceptedMsg :=
  List.foldl (fun known d =>
    match d.event with
    | .accepted mp => if mp.handle = handle then some mp else known
    | .disconnected mp => if mp.handle = handle then none else known
    | _ => known) none

/-- The reply law for one message, given the messages handled before it. -/
def RepliesTo (past : List Delivery) (d : Delivery) (posts : List Post) : Prop :=
  match d.event with
  | .accepted mp =>
      posts = [⟨mp.vppEventQueueAddress, .accepted mp.handle mp.context 0⟩] ∧
        mp.vppEventQueueAddress ≠ 0
  | .disconnected mp =>
      ∀ created, creator mp.handle past = some created →
        posts = [⟨created.vppEventQueueAddress, .disconnected mp.handle mp.context 0⟩] ∧
          created.vppEventQueueAddress ≠ 0
  | _ => posts = []

/-- Every message of the sequence is answered as the law says. -/
def RepliesLawful (unformatUri : List UInt8 → Option SessionEndpoint) (utm : UdpEchoMain)
    (ds : List Delivery) : Prop :=
  ∀ before d after, ds = before ++ d :: after →
    RepliesTo before d ((control unformatUri).output ((control unformatUri).run utm before) d)

/-- The messages the handlers answer correctly: ACCEPTED with a queue to
reply to, and DISCONNECTED for a handle that is not mapped. -/
def QueueKnown (past : List Delivery) (d : Delivery) : Prop :=
  match d.event with
  | .accepted mp => mp.vppEventQueueAddress ≠ 0
  | .disconnected mp => creator mp.handle past = none
  | _ => True

/-- The last message decides whose session a handle is. -/
theorem creator_append (handle : UInt64) (past : List Delivery) (d : Delivery) :
    creator handle (past ++ [d]) =
      match d.event with
      | .accepted mp => if mp.handle = handle then some mp else creator handle past
      | .disconnected mp => if mp.handle = handle then none else creator handle past
      | _ => creator handle past := by
  simp only [creator, List.foldl_append, List.foldl_cons, List.foldl_nil]

/-- What a handle is mapped to once a message is handled. -/
theorem lookup_next (unformatUri : List UInt8 → Option SessionEndpoint) (utm : UdpEchoMain)
    (d : Delivery) (handle : UInt64) :
    ((control unformatUri).next utm d).sessionIndexByVppHandles.lookup handle =
      match d.event with
      | .accepted mp =>
          if mp.handle = handle then some d.slot
          else utm.sessionIndexByVppHandles.lookup handle
      | .disconnected mp =>
          if mp.handle = handle then none else utm.sessionIndexByVppHandles.lookup handle
      | _ => utm.sessionIndexByVppHandles.lookup handle := by
  have hStore := congrArg (fun store => store.index.lookup handle) (store_next unformatUri utm d)
  refine hStore.trans ((SlotMap.lookup_apply utm.store d.op handle).trans ?_)
  rcases d with ⟨event, slot⟩
  cases event with
  | bound mp =>
      simp only [Delivery.op]
      split_ifs <;> rfl
  | accepted mp => rfl
  | connected mp =>
      simp only [Delivery.op]
      split_ifs <;> rfl
  | disconnected mp => rfl
  | unhandled eventType => rfl

/-- The hash maps the handles that have a creator, and the record of a
mapped session has the null pointer for its event queue. -/
structure Recorded (past : List Delivery) (utm : UdpEchoMain) : Prop where
  sound : ∃ pinned, SlotMap.Sound pinned utm.store
  mapped_iff : ∀ handle,
    utm.sessionIndexByVppHandles.lookup handle = none ↔ creator handle past = none
  vppEvtQ_null : ∀ {handle i}, utm.sessionIndexByVppHandles.lookup handle = some i →
    (utm.sessions.elt i).vppEvtQ = 0

/-- Before the first message no handle is known. -/
theorem recorded_initial (isConnected : Bool) (connectUri : List UInt8)
    (memory : Nat → AppSession) (fifos : Address → Nat) :
    Recorded [] (.initial isConnected connectUri memory fifos) where
  sound := ⟨[], SlotMap.sound_empty⟩
  mapped_iff handle := by simp [UdpEchoMain.initial, creator]
  vppEvtQ_null hLookup := by simp [UdpEchoMain.initial] at hLookup

variable {unformatUri : List UInt8 → Option SessionEndpoint} {past : List Delivery}
  {utm : UdpEchoMain} {d : Delivery}

/-- A message leaves the record of a session under a handle as it is. -/
theorem Recorded.elt_next (h : Recorded past utm) (hEnabled : (control unformatUri).enabled utm d)
    {handle : UInt64} {i : Nat} (hLookup : utm.sessionIndexByVppHandles.lookup handle = some i) :
    ((control unformatUri).next utm d).sessions.elt i = utm.sessions.elt i := by
  obtain ⟨pinned, hSound⟩ := h.sound
  apply elt_next_of_ne
  rintro rfl
  exact hEnabled (hSound.live_of_lookup hLookup)

/-- The record an ACCEPTED message leaves in its slot names no queue. -/
theorem elt_accepted (utm : UdpEchoMain) (slot : Nat) (mp : SessionAcceptedMsg) :
    ((sessionAcceptedHandler utm slot mp).1.sessions.elt slot).vppEvtQ = 0 := by
  simp [sessionAcceptedHandler]

/-- Every message keeps the records those of their creators. -/
theorem Recorded.next (h : Recorded past utm) (hEnabled : (control unformatUri).enabled utm d) :
    Recorded (past ++ [d]) ((control unformatUri).next utm d) where
  sound := by
    obtain ⟨pinned, hSound⟩ := h.sound
    rw [store_next]
    exact ⟨_, hSound.apply (fresh_of_enabled hEnabled)⟩
  mapped_iff handle := by
    rw [lookup_next, creator_append]
    have hOld := h.mapped_iff handle
    rcases d with ⟨event, slot⟩
    cases event with
    | accepted mp =>
        dsimp only
        split_ifs
        · simp
        · exact hOld
    | disconnected mp =>
        dsimp only
        split_ifs
        · simp
        · exact hOld
    | _ => exact hOld
  vppEvtQ_null {handle i} hLookup := by
    by_cases hOld : utm.sessionIndexByVppHandles.lookup handle = some i
    · rw [h.elt_next hEnabled hOld]
      exact h.vppEvtQ_null hOld
    -- a mapping that was not there before is the accepted one
    rw [lookup_next] at hLookup
    rcases d with ⟨event, slot⟩
    cases event with
    | accepted mp =>
        dsimp only at hLookup
        split_ifs at hLookup
        · obtain rfl : slot = i := by simpa using hLookup
          exact elt_accepted utm slot mp
        · exact absurd hLookup hOld
    | disconnected mp =>
        dsimp only at hLookup
        split_ifs at hLookup
        exact absurd hLookup hOld
    | _ => exact absurd hLookup hOld

/-- One message is answered lawfully exactly when its queue is known. The
reply to a mapped DISCONNECTED goes to the null queue of the record. -/
theorem Recorded.repliesTo_iff (h : Recorded past utm) (d : Delivery) :
    RepliesTo past d ((control unformatUri).output utm d) ↔ QueueKnown past d := by
  rcases d with ⟨event, slot⟩
  cases event with
  | bound mp => simp [RepliesTo, QueueKnown, control, handleMqEvent]
  | accepted mp =>
      simp [RepliesTo, QueueKnown, control, handleMqEvent, sessionAcceptedHandler]
  | connected mp => simp [RepliesTo, QueueKnown, control, handleMqEvent]
  | disconnected mp =>
      simp only [RepliesTo, QueueKnown, control, handleMqEvent, sessionDisconnectedHandler]
      cases hCreator : creator mp.handle past with
      | none => simp
      | some created =>
          have hMapped : utm.sessionIndexByVppHandles.lookup mp.handle ≠ none := by
            rw [Ne, h.mapped_iff, hCreator]
            simp
          obtain ⟨i, hLookup⟩ := Option.ne_none_iff_exists'.mp hMapped
          simp only [hLookup, h.vppEvtQ_null hLookup, reduceCtorEq, iff_false]
          intro hLaw
          obtain ⟨hPosts, hQueue⟩ := hLaw created rfl
          simp only [List.cons.injEq, Post.mk.injEq] at hPosts
          exact hQueue hPosts.1.1.symm
  | unhandled eventType => simp [RepliesTo, QueueKnown, control, handleMqEvent]

variable {isConnected : Bool} {connectUri : List UInt8} {memory : Nat → AppSession}
  {fifos : Address → Nat}

theorem recorded_run {ds : List Delivery}
    (h : (control unformatUri).Admits (.initial isConnected connectUri memory fifos) ds) :
    Recorded ds ((control unformatUri).run (.initial isConnected connectUri memory fifos) ds) :=
  h.invariant_inputs Recorded (fun _ _ _ hEnabled hRecorded => hRecorded.next hEnabled)
    (recorded_initial isConnected connectUri memory fifos)

/-- The reply law holds over a sequence of control messages exactly when no
DISCONNECTED in it finds its handle mapped, provided VPP supplies queue
addresses at all. -/
theorem repliesLawful_iff (ds : List Delivery)
    (hAdmits : (control unformatUri).Admits (.initial isConnected connectUri memory fifos) ds) :
    RepliesLawful unformatUri (.initial isConnected connectUri memory fifos) ds ↔
      ∀ before d after, ds = before ++ d :: after → QueueKnown before d := by
  have hRecorded : ∀ before d after, ds = before ++ d :: after →
      Recorded before ((control unformatUri).run (.initial isConnected connectUri memory fifos) before) := by
    rintro before d after rfl
    exact recorded_run (Machine.admits_append _ _ _ |>.mp hAdmits).1
  constructor
  · intro hLaw before d after hSplit
    exact (hRecorded before d after hSplit).repliesTo_iff d |>.mp (hLaw before d after hSplit)
  · intro hKnown before d after hSplit
    exact (hRecorded before d after hSplit).repliesTo_iff d |>.mpr (hKnown before d after hSplit)

/-- A session is accepted, and a DISCONNECTED for another handle ignored. -/
theorem repliesLawful_unmapped :
    RepliesLawful (fun _ => none) (.initial false [] (fun _ => {}) fun _ => 0)
      [⟨.accepted ⟨7, 1, 16, 17, 4096, [], 1, 80⟩, 0⟩, ⟨.disconnected ⟨8, 2⟩, 1⟩] := by
  rw [repliesLawful_iff]
  · intro before d after hSplit
    rcases before with _ | ⟨first, _ | ⟨second, rest⟩⟩
    · obtain ⟨rfl, -⟩ := List.cons.inj hSplit
      simp [QueueKnown]
    · simp only [List.cons_append, List.nil_append, List.cons.injEq] at hSplit
      obtain ⟨rfl, rfl, -⟩ := hSplit
      simp [QueueKnown, creator]
    · simp at hSplit
  · simp [control, handleMqEvent, UdpEchoMain.initial, sessionAcceptedHandler,
      setClientSessionIndex]

/-- With every queue address supplied, an accepted session that is then
disconnected has its reply posted to the null queue. -/
theorem not_repliesLawful :
    ¬ ∀ ds : List Delivery,
      (control fun _ => none).Admits (.initial false [] (fun _ => {}) fun _ => 0) ds →
      (∀ d ∈ ds, ∀ mp, d.event = .accepted mp → mp.vppEventQueueAddress ≠ 0) →
      RepliesLawful (fun _ => none) (.initial false [] (fun _ => {}) fun _ => 0) ds := by
  intro hAll
  let accepted : Delivery := ⟨.accepted ⟨7, 1, 16, 17, 4096, [], 1, 80⟩, 0⟩
  let disconnected : Delivery := ⟨.disconnected ⟨8, 1⟩, 1⟩
  have hAdmits : (control fun _ => none).Admits (.initial false [] (fun _ => {}) fun _ => 0)
      [accepted, disconnected] := by
    simp [accepted, disconnected, control, handleMqEvent, UdpEchoMain.initial,
      sessionAcceptedHandler, setClientSessionIndex]
  have hLaw := hAll [accepted, disconnected] hAdmits (by simp [accepted, disconnected])
  have hRecorded := recorded_run (Machine.admits_append _ [accepted] [disconnected] |>.mp hAdmits).1
  have hKnown := (hRecorded.repliesTo_iff disconnected).mp (hLaw [accepted] disconnected [] rfl)
  simp [QueueKnown, creator, accepted, disconnected] at hKnown

end DpdkPerf.UdpEcho
