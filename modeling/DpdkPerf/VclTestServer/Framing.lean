import DpdkPerf.VclTestServer.Delivery
import DpdkPerf.VclTestServer.Layout

/-! How a byte stream is cut into reads. The server has no framing of its own:
a config message is one read of the right size, and a read of another size
that begins with the magic word is answered as an invalid one. What comes
between config messages may be cut at will. -/
namespace DpdkPerf.VclTestServer

/-- A part of the stream: a message that comes in a read of its own, or bytes
that are cut anywhere. -/
inductive Piece where
  | whole (msg : Bytes)
  | loose (bytes : Bytes)
  deriving DecidableEq, Repr

def Piece.bytes : Piece → Bytes
  | .whole msg => msg
  | .loose bytes => bytes

/-- The route of one read. -/
def routeOf (V : VclTestApi) (i : Nat) (w : Worker) (rx : Rx) : Option Route :=
  ((connection V false i).output w rx).map Handled.route

/-- Reads that deliver the pieces of a stream in order. No read of a loose
piece is taken for a config where it is made. -/
inductive Delivers (V : VclTestApi) (i : Nat) : Worker → List Piece → List Rx → Prop where
  | nil (w : Worker) : Delivers V i w [] []
  | whole {w : Worker} {rx : Rx} {msg : Bytes} {pieces : List Piece} {rest : List Rx}
      (hMsg : rx.msg = msg) (hLong : 4 ≤ msg.length)
      (hRest : Delivers V i ((connection V false i).next w rx) pieces rest) :
      Delivers V i w (.whole msg :: pieces) (rx :: rest)
  | loose {w : Worker} {reads : List Rx} {bytes : Bytes} {pieces : List Piece} {rest : List Rx}
      (hBytes : reads.flatMap Rx.msg = bytes)
      (hData : (connection V false i).Meets (fun w rx => routeOf V i w rx ≠ some .handleCfg) w reads)
      (hRest : Delivers V i ((connection V false i).run w reads) pieces rest) :
      Delivers V i w (.loose bytes :: pieces) (reads ++ rest)

/-- The config messages a run handles, in order. -/
def configMessages (V : VclTestApi) (i : Nat) (w : Worker) (reads : List Rx) : List Bytes :=
  ((connection V false i).visits w reads).filterMap fun visit =>
    if routeOf V i visit.1 visit.2 = some .handleCfg then some visit.2.msg else none

section Framing

variable {V : VclTestApi} {i : Nat} {w w' : Worker} {rx rx' : Rx}

/-- The first message is a config or not, and the rest follow. -/
theorem configMessages_cons (rest : List Rx) :
    configMessages V i w (rx :: rest) =
      (if routeOf V i w rx = some .handleCfg then [rx.msg] else []) ++
        configMessages V i ((connection V false i).next w rx) rest := by
  unfold configMessages
  rw [Machine.visits, List.filterMap_cons]
  dsimp only
  split_ifs <;> rfl

/-- The configs of two runs, one after the other. -/
theorem configMessages_append (first second : List Rx) :
    configMessages V i w (first ++ second) =
      configMessages V i w first ++
        configMessages V i ((connection V false i).run w first) second := by
  unfold configMessages
  rw [Machine.visits_append, List.filterMap_append]

/-- The slot of the connection in two runs, and the count of connections. -/
structure SameSlot (i : Nat) (w w' : Worker) : Prop where
  slot : ∃ conn conn', w.connPool[i]? = some conn ∧ w'.connPool[i]? = some conn' ∧
    conn.view = conn'.view
  nfds : w.nfds = w'.nfds

theorem View.count_append (v : View) (first second : Bytes) :
    (v.count first).count second = v.count (first ++ second) := by
  unfold View.count
  rw [List.length_append, UInt64.ofNat_add, UInt64.add_assoc]

/-- However bytes are cut, reads that are not configs only count them. -/
theorem loose_run {reads : List Rx} {conn : Conn} (hSlot : w.connPool[i]? = some conn)
    (hData : (connection V false i).Meets
      (fun w rx => routeOf V i w rx ≠ some .handleCfg) w reads) :
    (∃ conn', ((connection V false i).run w reads).connPool[i]? = some conn' ∧
        conn'.view = conn.view.count (reads.flatMap Rx.msg)) ∧
      ((connection V false i).run w reads).nfds = w.nfds ∧ configMessages V i w reads = [] := by
  induction reads generalizing w conn with
  | nil =>
      refine ⟨⟨conn, hSlot, ?_⟩, rfl, rfl⟩
      simp [View.count, Conn.view]
  | cons rx rest ih =>
      rw [Machine.meets_cons] at hData
      have hRoute : route V false (vtsConnRead false rx.env conn rx.ds) ≠ .handleCfg := by
        intro hConfig
        apply hData.1
        rw [routeOf, connection_output rx hSlot, Option.map_some, vtsHandleMessage_route, hConfig]
      obtain ⟨hView, hNfds⟩ := view_of_not_handleCfg V false rx.env w.connPool i w.nfds conn rx.ds
        hRoute
      obtain ⟨⟨conn', hLast, hLastView⟩, hLastNfds, hNone⟩ := ih (connection_slot rx hSlot) hData.2
      refine ⟨⟨conn', hLast, ?_⟩, ?_, ?_⟩
      · rw [hLastView, hView, View.count_append]
        rfl
      · rw [Machine.run_cons, hLastNfds, connection_next rx hSlot]
        exact hNfds
      · rw [configMessages_cons, if_neg hData.1, hNone]
        rfl

/-- A message that both runs read whole has the same route in both, and the
same effect. -/
theorem SameSlot.next_whole (h : SameSlot i w w') (hMsg : rx.msg = rx'.msg)
    (hLong : 4 ≤ rx.msg.length) (hReceives : w.Receives false i rx)
    (hReceives' : w'.Receives false i rx') :
    SameSlot i ((connection V false i).next w rx) ((connection V false i).next w' rx') ∧
      routeOf V i w rx = routeOf V i w' rx' := by
  obtain ⟨conn, conn', hSlot, hSlot', hView⟩ := h.slot
  obtain ⟨-, conn₁, hSlot₁, hAlloc, -, hFits⟩ := hReceives
  obtain rfl := Option.some.inj (hSlot.symm.trans hSlot₁)
  obtain ⟨-, conn₂, hSlot₂, hAlloc', -, hFits'⟩ := hReceives'
  obtain rfl := Option.some.inj (hSlot'.symm.trans hSlot₂)
  have hData : rx.ds.data = rx'.ds.data := hMsg
  have hLong' : 4 ≤ rx'.ds.data.length := by rwa [← hData]
  obtain ⟨hRoute, hAfter, hNfds⟩ := refines_message V false rx.env w.connPool i w.nfds conn rx.ds
    hAlloc hLong (hFits rfl) (Or.inl rfl)
  obtain ⟨hRoute', hAfter', hNfds'⟩ := refines_message V false rx'.env w'.connPool i w'.nfds conn'
    rx'.ds hAlloc' hLong' (hFits' rfl) (Or.inl rfl)
  refine ⟨⟨⟨_, _, connection_slot rx hSlot, connection_slot rx' hSlot', ?_⟩, ?_⟩, ?_⟩
  · rw [hAfter, hAfter', hView, hData]
  · rw [connection_next rx hSlot, connection_next rx' hSlot']
    dsimp only
    rw [hNfds, hNfds', hView, hData, h.nfds]
  · rw [routeOf, routeOf, connection_output rx hSlot, connection_output rx' hSlot', Option.map_some,
      Option.map_some, hRoute, hRoute', hView, hData]

/-- What is read is what was sent, however it was cut. -/
theorem Delivers.flatMap_msg {pieces : List Piece} {reads : List Rx}
    (h : Delivers V i w pieces reads) : reads.flatMap Rx.msg = pieces.flatMap Piece.bytes := by
  induction h with
  | nil w => rfl
  | whole hMsg hLong hRest ih => rw [List.flatMap_cons, List.flatMap_cons, ih, hMsg]; rfl
  | loose hBytes hData hRest ih => rw [List.flatMap_append, List.flatMap_cons, ih, hBytes]; rfl

/-- The induction over the pieces, from two states of the connection. -/
theorem sameConfigs_of_delivers {pieces : List Piece} {reads reads' : List Rx}
    (hDelivers : Delivers V i w pieces reads) (hDelivers' : Delivers V i w' pieces reads')
    (hAdmits : (connection V false i).Admits w reads)
    (hAdmits' : (connection V false i).Admits w' reads') (hSame : SameSlot i w w') :
    configMessages V i w reads = configMessages V i w' reads' ∧
      SameSlot i ((connection V false i).run w reads) ((connection V false i).run w' reads') := by
  induction hDelivers generalizing w' reads' with
  | nil w =>
      cases hDelivers' with
      | nil => exact ⟨rfl, hSame⟩
  | @whole w rx msg pieces rest hMsg hLong hRest ih =>
      cases hDelivers' with
      | @whole _ rx' _ _ rest' hMsg' hLong' hRest' =>
          rw [Machine.admits_cons] at hAdmits hAdmits'
          obtain ⟨hNext, hRoute⟩ := hSame.next_whole (V := V) (hMsg.trans hMsg'.symm)
            (by rwa [hMsg]) hAdmits.1 hAdmits'.1
          obtain ⟨hConfigs, hLast⟩ := ih hRest' hAdmits.2 hAdmits'.2 hNext
          refine ⟨?_, hLast⟩
          rw [configMessages_cons, configMessages_cons, hRoute, hConfigs, hMsg, hMsg']
  | @loose w reads bytes pieces rest hBytes hData hRest ih =>
      cases hDelivers' with
      | @loose _ reads' _ _ rest' hBytes' hData' hRest' =>
          rw [Machine.admits_append] at hAdmits hAdmits'
          obtain ⟨conn, conn', hSlot, hSlot', hView⟩ := hSame.slot
          obtain ⟨⟨after, hAfter, hAfterView⟩, hNfds, hNone⟩ := loose_run hSlot hData
          obtain ⟨⟨after', hAfter', hAfterView'⟩, hNfds', hNone'⟩ := loose_run hSlot' hData'
          have hNext : SameSlot i ((connection V false i).run w reads)
              ((connection V false i).run w' reads') :=
            ⟨⟨after, after', hAfter, hAfter', by
              rw [hAfterView, hAfterView', hBytes, hBytes', hView]⟩, by
              rw [hNfds, hNfds', hSame.nfds]⟩
          obtain ⟨hConfigs, hLast⟩ := ih hRest' hAdmits.2 hAdmits'.2 hNext
          refine ⟨?_, ?_⟩
          · rw [configMessages_append, configMessages_append, hNone, hNone', hConfigs]
          · rw [Machine.run_append, Machine.run_append]
            exact hLast

/-- Two ways of cutting one stream into reads, which agree on the messages
that are read whole and take no read of what lies between them for a config,
lead to the same config messages and leave the connection with the same
config, slot and count of connections. -/
theorem configMessages_of_pieces {conn : Conn} {pieces : List Piece} {reads reads' : List Rx}
    (hSlot : w.connPool[i]? = some conn) (hDelivers : Delivers V i w pieces reads)
    (hDelivers' : Delivers V i w pieces reads')
    (hAdmits : (connection V false i).Admits w reads)
    (hAdmits' : (connection V false i).Admits w reads') :
    reads.flatMap Rx.msg = reads'.flatMap Rx.msg ∧
      configMessages V i w reads = configMessages V i w reads' ∧
      ((connection V false i).run w reads).nfds = ((connection V false i).run w reads').nfds ∧
      ∃ after after', ((connection V false i).run w reads).connPool[i]? = some after ∧
        ((connection V false i).run w reads').connPool[i]? = some after' ∧
        after.cfg = after'.cfg ∧ after.isAlloc = after'.isAlloc := by
  obtain ⟨hConfigs, hLast⟩ := sameConfigs_of_delivers hDelivers hDelivers' hAdmits hAdmits'
    ⟨⟨conn, conn, hSlot, hSlot, rfl⟩, rfl⟩
  obtain ⟨after, after', hAfter, hAfter', hView⟩ := hLast.slot
  refine ⟨hDelivers.flatMap_msg.trans hDelivers'.flatMap_msg.symm, hConfigs, hLast.nfds, after, after',
    hAfter, hAfter', congrArg View.cfg hView, congrArg View.isAlloc hView⟩

/-- A UNI config, ten bytes of data in one read or in two, and an EXIT. -/
theorem configMessages_of_pieces_uni :
    let uni : VclTestCfg := { defaultCfg with test := .uni, totalBytes := 10 }
    let exit : VclTestCfg := { defaultCfg with test := .exit }
    let w := ((server packedApi false).run (.initial packedApi 1)
      [.event ⟨.listener, false, false, true⟩ ⟨true, 5, 0, {}, []⟩]).worker
    let config : Rx := { ds := ⟨packedApi.encode uni, []⟩ }
    let last : Rx := { ds := ⟨packedApi.encode exit, []⟩ }
    let data : List Rx := [{ ds := ⟨[0, 1, 2, 3, 4, 5, 6, 7, 8, 9], []⟩ }]
    let data' : List Rx := [{ ds := ⟨[0, 1, 2], []⟩ }, { ds := ⟨[3, 4, 5, 6, 7, 8, 9], []⟩ }]
    configMessages packedApi 0 w (config :: (data ++ [last])) =
      configMessages packedApi 0 w (config :: (data' ++ [last])) := by
  intro uni exit w config last data data'
  let pieces : List Piece := [.whole config.msg, .loose [0, 1, 2, 3, 4, 5, 6, 7, 8, 9],
    .whole last.msg]
  let started := (connection packedApi false 0).next w config
  let plain (w : Worker) (rx : Rx) : Prop := routeOf packedApi 0 w rx ≠ some .handleCfg
  have hReads : 4 ≤ config.msg.length ∧ 4 ≤ last.msg.length ∧
      (connection packedApi false 0).Meets plain started data ∧
      (connection packedApi false 0).Meets plain started data' ∧
      (connection packedApi false 0).Admits w (config :: (data ++ [last])) ∧
      (connection packedApi false 0).Admits w (config :: (data' ++ [last])) := by
    decide +kernel
  obtain ⟨hLong, hLong', hData, hData', hAdmits, hAdmits'⟩ := hReads
  have hDelivers : Delivers packedApi 0 w pieces (config :: (data ++ [last])) :=
    .whole rfl hLong (.loose rfl hData (.whole rfl hLong' (.nil _)))
  have hDelivers' : Delivers packedApi 0 w pieces (config :: (data' ++ [last])) :=
    .whole rfl hLong (.loose rfl hData' (.whole rfl hLong' (.nil _)))
  exact (configMessages_of_pieces rfl hDelivers hDelivers' hAdmits hAdmits').2.1

/-- A config that comes in one read is handled as it is. In two reads its
first half is taken for a config of the wrong size. -/
theorem not_configMessages_of_bytes :
    ¬ ∀ (inputs : List Input) (i : Nat) (reads reads' : List Rx),
      (server packedApi false).Admits (.initial packedApi 1) inputs →
      let w := ((server packedApi false).run (.initial packedApi 1) inputs).worker
      (connection packedApi false i).Admits w reads →
      (connection packedApi false i).Admits w reads' →
      reads.flatMap Rx.msg = reads'.flatMap Rx.msg →
      configMessages packedApi i w reads = configMessages packedApi i w reads' := by
  intro h
  let config := packedApi.encode { defaultCfg with test := .uni }
  let inputs : List Input := [.event ⟨.listener, false, false, true⟩ ⟨true, 5, 0, {}, []⟩]
  let reads : List Rx := [{ ds := ⟨config, []⟩ }]
  let reads' : List Rx := [{ ds := ⟨config.take 28, []⟩ }, { ds := ⟨config.drop 28, []⟩ }]
  let w := ((server packedApi false).run (.initial packedApi 1) inputs).worker
  have hRuns : (server packedApi false).Admits (.initial packedApi 1) inputs ∧
      (connection packedApi false 0).Admits w reads ∧
      (connection packedApi false 0).Admits w reads' ∧
      reads.flatMap Rx.msg = reads'.flatMap Rx.msg ∧
      configMessages packedApi 0 w reads ≠ configMessages packedApi 0 w reads' := by
    decide +kernel
  obtain ⟨hInputs, hAdmits, hAdmits', hStream, hDiffer⟩ := hRuns
  exact hDiffer (h inputs 0 reads reads' hInputs hAdmits hAdmits' hStream)

end Framing

end DpdkPerf.VclTestServer
