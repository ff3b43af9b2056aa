import DpdkPerf.UdpEcho.FifoEvent

/-! Which records of udp-echo's sessions are well formed. Three handlers build
a record, and each fills other fields. -/
namespace DpdkPerf.UdpEcho

/-- A CONNECTED message of a cut-through session. -/
def Delivery.IsCutThrough (d : Delivery) : Prop :=
  match d.event with
  | .connected mp => mp.ctRxFifo ≠ 0
  | _ => False

instance (d : Delivery) : Decidable d.IsCutThrough :=
  match h : d.event with
  | .connected mp => decidable_of_iff (mp.ctRxFifo ≠ 0) (by rw [Delivery.IsCutThrough, h])
  | .bound _ | .accepted _ | .disconnected _ | .unhandled _ =>
      isFalse (by rw [Delivery.IsCutThrough, h]; exact id)

/-- `cutThrough` keeps the slots whose session came as a cut-through one; the
program has no such field. -/
structure Tracked where
  utm : UdpEchoMain
  cutThrough : Finset Nat

def tracked (unformatUri : List UInt8 → Option SessionEndpoint) :
    Machine Tracked Delivery (List Post) where
  enabled s d := (control unformatUri).enabled s.utm d
  next s d :=
    { utm := (control unformatUri).next s.utm d
      cutThrough :=
        match d.op.slot with
        | none => s.cutThrough
        | some i => if d.IsCutThrough then insert i s.cutThrough else s.cutThrough.erase i }
  output s d := (control unformatUri).output s.utm d

def Tracked.initial (isConnected : Bool) (connectUri : List UInt8) (memory : Nat → AppSession)
    (fifos : Address → Nat) : Tracked :=
  ⟨.initial isConnected connectUri memory fifos, ∅⟩

/-- The record of a session names its own slot, as do its two fifos, and says
whether the session is one of datagrams. -/
structure Tracked.WellFormed (s : Tracked) (i : Nat) : Prop where
  sessionIndex : (s.utm.sessions.elt i).sessionIndex = i
  rxFifo : s.utm.clientSessionIndex (s.utm.sessions.elt i).rxFifo = i
  txFifo : s.utm.clientSessionIndex (s.utm.sessions.elt i).txFifo = i
  isDgram : i ∉ s.cutThrough → (s.utm.sessions.elt i).isDgram = !s.utm.isConnected

def Tracked.AllWellFormed (s : Tracked) : Prop := ∀ i ∈ s.utm.sessions.live, s.WellFormed i

/-- No live session has one of the fifos. -/
def UdpEchoMain.FreshFifos (utm : UdpEchoMain) (rxFifo txFifo : Address) : Prop :=
  ∀ i ∈ utm.sessions.live, ∀ fifo ∈ [(utm.sessions.elt i).rxFifo, (utm.sessions.elt i).txFifo],
    fifo ≠ rxFifo ∧ fifo ≠ txFifo

/-- A message whose handler fills the record as it should. -/
def KeepsRecords (unformatUri : List UInt8 → Option SessionEndpoint) (utm : UdpEchoMain)
    (d : Delivery) : Prop :=
  match d.event with
  | .bound mp =>
      mp.retval = 0 → d.slot = 0 ∧ utm.isConnected = true ∧ utm.FreshFifos mp.rxFifo mp.txFifo
  | .accepted mp =>
      utm.isConnected = true ∧ utm.FreshFifos mp.serverRxFifo mp.serverTxFifo
  | .connected mp =>
      mp.retval = 0 →
        (mp.ctRxFifo = 0 → unformatUri utm.connectUri = none →
          (utm.sessions.elt d.slot).isDgram = !utm.isConnected) ∧
          utm.FreshFifos mp.serverRxFifo mp.serverTxFifo
  | _ => True

/-- The `session_index` a handler leaves in the record. -/
def Delivery.storedIndex (d : Delivery) : Nat :=
  match d.event with
  | .bound _ => 0
  | _ => d.slot

/-- The `is_dgram` a handler leaves in the record. -/
def Delivery.storedIsDgram (unformatUri : List UInt8 → Option SessionEndpoint) (utm : UdpEchoMain)
    (d : Delivery) : Bool :=
  match d.event with
  | .connected mp =>
      if mp.ctRxFifo ≠ 0 then false
      else
        match unformatUri utm.connectUri with
        | none => (utm.sessions.elt d.slot).isDgram
        | some _ => !utm.isConnected
  | _ => false

variable {unformatUri : List UInt8 → Option SessionEndpoint} {utm : UdpEchoMain} {d : Delivery}
  {i : Nat}

/-- What a message leaves that creates a session. -/
theorem created (h : d.op.slot = some i) :
    (((control unformatUri).next utm d).sessions.elt i).sessionIndex = d.storedIndex ∧
      (((control unformatUri).next utm d).sessions.elt i).isDgram =
        d.storedIsDgram unformatUri utm ∧
      ((control unformatUri).next utm d).sessions.live = insert i utm.sessions.live ∧
      ((control unformatUri).next utm d).clientSessionIndex =
        Function.update (Function.update utm.clientSessionIndex d.event.rxFifo i)
          d.event.txFifo i := by
  obtain ⟨mp, rfl, hRetval⟩ | ⟨mp, rfl⟩ | ⟨mp, rfl, hRetval⟩ := creates_cases h
  · simp [control, handleMqEvent, sessionBoundHandler, hRetval, SessionEvent.rxFifo,
      SessionEvent.txFifo, setClientSessionIndex, Delivery.storedIndex, Delivery.storedIsDgram]
  · simp [control, handleMqEvent, sessionAcceptedHandler, SessionEvent.rxFifo,
      SessionEvent.txFifo, setClientSessionIndex, Delivery.storedIndex, Delivery.storedIsDgram]
  · by_cases hCutThrough : mp.ctRxFifo = 0
    · cases hUri : unformatUri utm.connectUri with
      | none => simp [control, handleMqEvent, sessionConnectedHandler, hRetval, hCutThrough,
          hUri, SessionEvent.rxFifo, SessionEvent.txFifo, setClientSessionIndex,
          Delivery.storedIndex, Delivery.storedIsDgram]
      | some sep => simp [control, handleMqEvent, sessionConnectedHandler, hRetval, hCutThrough,
          hUri, SessionEvent.rxFifo, SessionEvent.txFifo, setClientSessionIndex,
          Delivery.storedIndex, Delivery.storedIsDgram]
    · simp [control, handleMqEvent, sessionConnectedHandler, hRetval, hCutThrough,
        SessionEvent.rxFifo, SessionEvent.txFifo, setClientSessionIndex,
        Delivery.storedIndex, Delivery.storedIsDgram]

/-- The messages that create no session. -/
theorem creates_none_cases (h : d.op.slot = none) :
    (∃ mp, d.event = .bound mp ∧ mp.retval ≠ 0) ∨ (∃ mp, d.event = .connected mp ∧ mp.retval ≠ 0) ∨
      (∃ mp, d.event = .disconnected mp) ∨ ∃ eventType, d.event = .unhandled eventType := by
  rcases d with ⟨event, slot⟩
  cases event with
  | bound mp =>
      refine .inl ⟨mp, rfl, fun hRetval => ?_⟩
      simp [Delivery.op, hRetval, SlotMap.Op.slot] at h
  | accepted mp => cases h
  | connected mp =>
      refine .inr (.inl ⟨mp, rfl, fun hRetval => ?_⟩)
      simp [Delivery.op, hRetval, SlotMap.Op.slot] at h
  | disconnected mp => exact .inr (.inr (.inl ⟨mp, rfl⟩))
  | unhandled eventType => exact .inr (.inr (.inr ⟨eventType, rfl⟩))

/-- A message that creates no session touches no record and no fifo. -/
theorem not_created (h : d.op.slot = none) :
    ((control unformatUri).next utm d).sessions.elt = utm.sessions.elt ∧
      ((control unformatUri).next utm d).sessions.live ⊆ utm.sessions.live ∧
      ((control unformatUri).next utm d).clientSessionIndex = utm.clientSessionIndex := by
  obtain ⟨mp, hEvent, hRetval⟩ | ⟨mp, hEvent, hRetval⟩ | ⟨mp, hEvent⟩ | ⟨eventType, hEvent⟩ :=
    creates_none_cases h
  · simp [control, handleMqEvent, hEvent, sessionBoundHandler, hRetval]
  · simp [control, handleMqEvent, hEvent, sessionConnectedHandler, hRetval]
  · simp only [control, handleMqEvent, hEvent, sessionDisconnectedHandler]
    cases utm.sessionIndexByVppHandles.lookup mp.handle with
    | none => exact ⟨rfl, Finset.Subset.refl _, rfl⟩
    | some i => exact ⟨rfl, Finset.erase_subset i utm.sessions.live, rfl⟩
  · simp [control, handleMqEvent, hEvent]

/-- No message changes the mode of the server. -/
theorem isConnected_next (utm : UdpEchoMain) (d : Delivery) :
    ((control unformatUri).next utm d).isConnected = utm.isConnected := by
  rcases d with ⟨event, slot⟩
  cases event with
  | bound mp =>
      simp only [control, handleMqEvent, sessionBoundHandler]
      split <;> rfl
  | accepted mp => rfl
  | connected mp =>
      simp only [control, handleMqEvent, sessionConnectedHandler]
      split
      · rfl
      · split
        · rfl
        · split <;> rfl
  | disconnected mp =>
      simp only [control, handleMqEvent, sessionDisconnectedHandler]
      split <;> rfl
  | unhandled eventType => rfl

/-- The condition on a message, in terms of what its handler leaves. -/
theorem keepsRecords_iff (h : d.op.slot = some i) :
    KeepsRecords unformatUri utm d ↔
      d.storedIndex = i ∧
        (¬ d.IsCutThrough → d.storedIsDgram unformatUri utm = !utm.isConnected) ∧
        utm.FreshFifos d.event.rxFifo d.event.txFifo := by
  obtain ⟨mp, rfl, hRetval⟩ | ⟨mp, rfl⟩ | ⟨mp, rfl, hRetval⟩ := creates_cases h
  · simp [KeepsRecords, Delivery.storedIndex, Delivery.storedIsDgram, Delivery.IsCutThrough,
      SessionEvent.rxFifo, SessionEvent.txFifo, hRetval]
    exact fun _ _ => eq_comm
  · simp [KeepsRecords, Delivery.storedIndex, Delivery.storedIsDgram, Delivery.IsCutThrough,
      SessionEvent.rxFifo, SessionEvent.txFifo]
  · cases hUri : unformatUri utm.connectUri with
    | none => by_cases hCutThrough : mp.ctRxFifo = 0 <;>
        simp [KeepsRecords, Delivery.storedIndex, Delivery.storedIsDgram, Delivery.IsCutThrough,
          SessionEvent.rxFifo, SessionEvent.txFifo, hRetval, hUri, hCutThrough]
    | some sep => by_cases hCutThrough : mp.ctRxFifo = 0 <;>
        simp [KeepsRecords, Delivery.storedIndex, Delivery.storedIsDgram, Delivery.IsCutThrough,
          SessionEvent.rxFifo, SessionEvent.txFifo, hRetval, hUri, hCutThrough]

/-- A message that creates no session leaves the records alone. -/
theorem keepsRecords_of_none (h : d.op.slot = none) : KeepsRecords unformatUri utm d := by
  obtain ⟨mp, hEvent, hRetval⟩ | ⟨mp, hEvent, hRetval⟩ | ⟨mp, hEvent⟩ | ⟨eventType, hEvent⟩ :=
    creates_none_cases h
  · simp [KeepsRecords, hEvent, hRetval]
  · simp [KeepsRecords, hEvent, hRetval]
  · simp [KeepsRecords, hEvent]
  · simp [KeepsRecords, hEvent]

/-- The fifos of the new session name it, and every other fifo what it named. -/
theorem clientSessionIndex_created (h : d.op.slot = some i) (fifo : Address) :
    ((control unformatUri).next utm d).clientSessionIndex fifo =
      if fifo = d.event.rxFifo ∨ fifo = d.event.txFifo then i else utm.clientSessionIndex fifo := by
  rw [(created h).2.2.2, Function.update_apply, Function.update_apply]
  by_cases hTx : fifo = d.event.txFifo
  · simp [hTx]
  · simp [hTx]

variable {s : Tracked}

/-- A new session is cut-through or it is not, whatever its slot held. -/
theorem cutThrough_created (h : d.op.slot = some i) :
    ((tracked unformatUri).next s d).cutThrough =
      if d.IsCutThrough then insert i s.cutThrough else s.cutThrough.erase i := by
  show (match d.op.slot with
    | none => s.cutThrough
    | some i => if d.IsCutThrough then insert i s.cutThrough else s.cutThrough.erase i) = _
  rw [h]

/-- A record that is not touched stays well formed while its fifos name it. -/
theorem Tracked.WellFormed.frame {s' : Tracked} {j : Nat} (h : s.WellFormed j)
    (hElt : s'.utm.sessions.elt j = s.utm.sessions.elt j)
    (hFifos : ∀ fifo ∈ [(s.utm.sessions.elt j).rxFifo, (s.utm.sessions.elt j).txFifo],
      s'.utm.clientSessionIndex fifo = s.utm.clientSessionIndex fifo)
    (hConnected : s'.utm.isConnected = s.utm.isConnected)
    (hCut : j ∉ s'.cutThrough → j ∉ s.cutThrough) : s'.WellFormed j where
  sessionIndex := by rw [hElt, h.sessionIndex]
  rxFifo := by rw [hElt, hFifos _ (by simp), h.rxFifo]
  txFifo := by rw [hElt, hFifos _ (by simp), h.txFifo]
  isDgram hNot := by rw [hElt, hConnected, h.isDgram (hCut hNot)]

/-- The record of a session another message creates is not touched. -/
theorem Tracked.WellFormed.next {j : Nat} (h : s.WellFormed j) (hSlot : d.op.slot = some i)
    (hOther : j ≠ i)
    (hFresh : ∀ fifo ∈ [(s.utm.sessions.elt j).rxFifo, (s.utm.sessions.elt j).txFifo],
      fifo ≠ d.event.rxFifo ∧ fifo ≠ d.event.txFifo) :
    ((tracked unformatUri).next s d).WellFormed j := by
  apply h.frame
  · obtain rfl := slot_of_op hSlot
    exact elt_next_of_ne hOther
  · intro fifo hMem
    obtain ⟨hRx, hTx⟩ := hFresh fifo hMem
    show ((control unformatUri).next s.utm d).clientSessionIndex fifo = _
    rw [clientSessionIndex_created hSlot, if_neg (not_or.mpr ⟨hRx, hTx⟩)]
  · exact isConnected_next s.utm d
  · intro hCut hMem
    rw [cutThrough_created hSlot] at hCut
    split at hCut
    · exact hCut (Finset.mem_insert_of_mem hMem)
    · exact hCut (Finset.mem_erase.mpr ⟨hOther, hMem⟩)

/-- When the record of the new session is well formed. -/
theorem wellFormed_created (hSlot : d.op.slot = some i) :
    ((tracked unformatUri).next s d).WellFormed i ↔
      d.storedIndex = i ∧
        (¬ d.IsCutThrough → d.storedIsDgram unformatUri s.utm = !s.utm.isConnected) := by
  obtain ⟨hIndex, hDgram, -, -⟩ := @created unformatUri s.utm d i hSlot
  obtain ⟨hRx, hTx⟩ := @fifos_created unformatUri s.utm d i hSlot
  have hFlag : (((tracked unformatUri).next s d).utm.sessions.elt i).isDgram =
      (!((tracked unformatUri).next s d).utm.isConnected) ↔
      d.storedIsDgram unformatUri s.utm = !s.utm.isConnected := by
    show (((control unformatUri).next s.utm d).sessions.elt i).isDgram =
      (!((control unformatUri).next s.utm d).isConnected) ↔ _
    rw [hDgram, isConnected_next]
  constructor
  · intro h
    refine ⟨hIndex.symm.trans h.sessionIndex, fun hCut => hFlag.mp (h.isDgram ?_)⟩
    rw [cutThrough_created hSlot, if_neg hCut]
    exact Finset.notMem_erase i s.cutThrough
  · rintro ⟨hStored, hFlagged⟩
    refine ⟨hIndex.trans hStored, ?_, ?_, fun hCut => hFlag.mpr (hFlagged fun hIs => ?_)⟩
    · show ((control unformatUri).next s.utm d).clientSessionIndex
        (((control unformatUri).next s.utm d).sessions.elt i).rxFifo = i
      rw [hRx, clientSessionIndex_created hSlot, if_pos (.inl rfl)]
    · show ((control unformatUri).next s.utm d).clientSessionIndex
        (((control unformatUri).next s.utm d).sessions.elt i).txFifo = i
      rw [hTx, clientSessionIndex_created hSlot, if_pos (.inr rfl)]
    · rw [cutThrough_created hSlot, if_pos hIs] at hCut
      exact hCut (Finset.mem_insert_self i s.cutThrough)

/-- Records stay well formed when no session is created. -/
theorem Tracked.WellFormed.next_of_none {j : Nat} (h : s.WellFormed j)
    (hSlot : d.op.slot = none) : ((tracked unformatUri).next s d).WellFormed j := by
  obtain ⟨hElt, -, hFifos⟩ := @not_created unformatUri s.utm d hSlot
  have hCut : ((tracked unformatUri).next s d).cutThrough = s.cutThrough := by
    show (match d.op.slot with
      | none => s.cutThrough
      | some i => if d.IsCutThrough then insert i s.cutThrough else s.cutThrough.erase i) = _
    rw [hSlot]
  apply h.frame
  · exact congrFun hElt j
  · exact fun fifo _ => congrFun hFifos fifo
  · exact isConnected_next s.utm d
  · exact fun hNot => hCut ▸ hNot

/-- A session whose record is still well formed does not share its fifos with
the new one. -/
theorem Tracked.WellFormed.fresh_of_next {j : Nat}
    (h : ((tracked unformatUri).next s d).WellFormed j) (hSlot : d.op.slot = some i)
    (hOther : j ≠ i) :
    ∀ fifo ∈ [(s.utm.sessions.elt j).rxFifo, (s.utm.sessions.elt j).txFifo],
      fifo ≠ d.event.rxFifo ∧ fifo ≠ d.event.txFifo := by
  intro fifo hFifo
  have hElt : ((control unformatUri).next s.utm d).sessions.elt j = s.utm.sessions.elt j := by
    obtain rfl := slot_of_op hSlot
    exact elt_next_of_ne hOther
  have hNames : ((control unformatUri).next s.utm d).clientSessionIndex fifo = j := by
    have hRx := h.rxFifo
    have hTx := h.txFifo
    rw [show ((tracked unformatUri).next s d).utm.sessions.elt j =
      s.utm.sessions.elt j from hElt] at hRx hTx
    simp only [List.mem_cons, List.not_mem_nil, or_false] at hFifo
    rcases hFifo with rfl | rfl
    · exact hRx
    · exact hTx
  rw [clientSessionIndex_created hSlot] at hNames
  by_contra hTaken
  rw [not_and_or, not_ne_iff, not_ne_iff] at hTaken
  rw [if_pos hTaken] at hNames
  exact hOther hNames.symm

/-- A step keeps all records well formed if and only if its message is one
whose handler fills the record as it should. -/
theorem allWellFormed_next_iff (h : s.AllWellFormed) (hEnabled : d.slot ∉ s.utm.sessions.live) :
    ((tracked unformatUri).next s d).AllWellFormed ↔ KeepsRecords unformatUri s.utm d := by
  cases hSlot : d.op.slot with
  | none =>
      obtain ⟨-, hLive, -⟩ := @not_created unformatUri s.utm d hSlot
      exact iff_of_true (fun j hj => (h j (hLive hj)).next_of_none hSlot)
        (keepsRecords_of_none hSlot)
  | some i =>
      have hFree : i ∉ s.utm.sessions.live := slot_of_op hSlot ▸ hEnabled
      have hLive : ((tracked unformatUri).next s d).utm.sessions.live =
          insert i s.utm.sessions.live := (created hSlot).2.2.1
      rw [keepsRecords_iff hSlot]
      constructor
      · intro hNext
        have hNew := hNext i (by rw [hLive]; exact Finset.mem_insert_self i _)
        obtain ⟨hIndex, hDgram⟩ := (wellFormed_created hSlot).mp hNew
        refine ⟨hIndex, hDgram, fun j hj => ?_⟩
        have hOther : j ≠ i := by
          rintro rfl
          exact hFree hj
        have hOld := hNext j (by rw [hLive]; exact Finset.mem_insert_of_mem hj)
        exact hOld.fresh_of_next hSlot hOther
      · rintro ⟨hIndex, hDgram, hFresh⟩ j hj
        rw [hLive, Finset.mem_insert] at hj
        rcases hj with rfl | hOld
        · exact (wellFormed_created hSlot).mpr ⟨hIndex, hDgram⟩
        · have hOther : j ≠ i := by
            rintro rfl
            exact hFree hOld
          exact (h j hOld).next hSlot hOther (hFresh j hOld)

/-- The ghost set has no say in what the messages meet. -/
theorem meets_tracked {C : UdpEchoMain → Delivery → Prop} (s : Tracked) (ds : List Delivery) :
    (tracked unformatUri).Meets (fun s d => C s.utm d) s ds ↔
      (control unformatUri).Meets C s.utm ds := by
  have hMap := Machine.meets_map (M := tracked unformatUri) (N := control unformatUri)
    (f := Tracked.utm) (g := id) (E := C) (fun _ _ => rfl) s ds
  rw [List.map_id] at hMap
  exact hMap.symm

/-- The records of all live sessions are well formed throughout a run of
control messages if and only if every message is one whose handler fills the
record as it should. -/
theorem records_wellFormed_iff {isConnected : Bool} {connectUri : List UInt8}
    {memory : Nat → AppSession} {fifos : Address → Nat} {ds : List Delivery}
    (hRun : (tracked unformatUri).Admits (.initial isConnected connectUri memory fifos) ds) :
    (tracked unformatUri).Always Tracked.AllWellFormed
        (.initial isConnected connectUri memory fifos) ds ↔
      (control unformatUri).Meets (KeepsRecords unformatUri)
        (.initial isConnected connectUri memory fifos) ds := by
  have hStart : (Tracked.initial isConnected connectUri memory fifos).AllWellFormed :=
    fun i hi => absurd hi (Finset.notMem_empty i)
  rw [hRun.always_iff (I := Tracked.AllWellFormed)
    (C := fun s d => KeepsRecords unformatUri s.utm d) hStart (fun _ h => h)
    (fun s d hEnabled hKeeps h => (allWellFormed_next_iff h hEnabled).mpr hKeeps)
    (fun s d hEnabled hNot h hNext => hNot ((allWellFormed_next_iff h hEnabled).mp hNext))]
  exact meets_tracked _ ds

/-- A connected session, accepted in slot 3. -/
theorem records_wellFormed_iff_accepted :
    (control fun _ => none).Meets (KeepsRecords fun _ => none)
        (.initial true [] (fun _ => {}) (fun _ => 0))
        [⟨.accepted ⟨7, 9, 0x100, 0x200, 0x300, [], 1, 80⟩, 3⟩] ∧
      (tracked fun _ => none).Always Tracked.AllWellFormed
        (.initial true [] (fun _ => {}) (fun _ => 0))
        [⟨.accepted ⟨7, 9, 0x100, 0x200, 0x300, [], 1, 80⟩, 3⟩] := by
  have hKeeps : (control fun _ => none).Meets (KeepsRecords fun _ => none)
      (.initial true [] (fun _ => {}) (fun _ => 0))
      [⟨.accepted ⟨7, 9, 0x100, 0x200, 0x300, [], 1, 80⟩, 3⟩] := by
    rw [Machine.meets_cons]
    exact ⟨⟨rfl, fun i hLive => absurd hLive (Finset.notMem_empty i)⟩, Machine.meets_nil _⟩
  refine ⟨hKeeps, (records_wellFormed_iff ?_).mpr hKeeps⟩
  rw [Machine.admits_cons]
  exact ⟨Finset.notMem_empty 3, Machine.admits_nil _⟩

/-- The session a server binds for datagrams is taken for one of a stream. -/
theorem not_records_wellFormed :
    (tracked fun _ => none).Admits (.initial false [] (fun _ => {}) (fun _ => 0))
        [⟨.bound ⟨0, 0x100, 0x200, 0x300, [], 1, 80⟩, 0⟩] ∧
      ¬ (tracked fun _ => none).Always Tracked.AllWellFormed
        (.initial false [] (fun _ => {}) (fun _ => 0))
        [⟨.bound ⟨0, 0x100, 0x200, 0x300, [], 1, 80⟩, 0⟩] := by
  constructor
  · rw [Machine.admits_cons]
    exact ⟨Finset.notMem_empty 0, Machine.admits_nil _⟩
  · intro hAlways
    have hBound := hAlways.last 0 (Finset.mem_insert_self 0 ∅)
    have hDgram := hBound.isDgram (by decide)
    exact absurd hDgram (by decide)

end DpdkPerf.UdpEcho
