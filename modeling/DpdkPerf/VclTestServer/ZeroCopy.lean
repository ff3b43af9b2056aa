import DpdkPerf.VclTestServer.Delivery
import DpdkPerf.VclTestServer.Layout

/-! The zero-copy mode against the copying mode, on configs and the data of
UNI and BI tests. Both refine the protocol, and count what they send alike. -/
namespace DpdkPerf.VclTestServer

section Message

variable (V : VclTestApi) (useDs : Bool) (env : Env) (pool : List Conn) (index : Nat)
  (nfds : Int) (conn : Conn) (ds : Segments)

/-- `stats.tx_bytes` after a message that was counted as received. -/
def View.txAfter (v : View) (msg : Bytes) (txBytes : UInt64) : UInt64 :=
  match v.route V msg with
  | .handleCfg =>
      if msg.length ≠ V.cfgSize then txBytes
      else
        match (V.decode msg).test with
        | .uni | .bi => 0
        | _ => txBytes
  | .serverRx => if v.cfg.test = .bi then txBytes + UInt64.ofNat msg.length else txBytes
  | .serverEcho => txBytes + UInt64.ofNat (v.echoText msg).length
  | .notDrained => txBytes

/-- What is released shows in the view. -/
theorem View.releases_iff (v : View) (msg : Bytes) :
    (v.route V msg).Releases ↔
      (v.expectsConfig = true ∧ msg.take 4 = V.magicBytes) ∨ v.cfg.test = .uni ∨ v.cfg.test = .bi := by
  unfold View.route
  by_cases hConfig : (v.expectsConfig && decide (msg.take 4 = V.magicBytes)) = true
  · rw [if_pos hConfig]
    exact iff_of_true trivial (Or.inl (by simpa using hConfig))
  · have hNot : ¬ (v.expectsConfig = true ∧ msg.take 4 = V.magicBytes) := by simpa using hConfig
    rw [if_neg hConfig]
    by_cases hTest : (decide (v.cfg.test = .uni) || decide (v.cfg.test = .bi)) = true
    · rw [if_pos hTest]
      exact iff_of_true trivial (Or.inr (by simpa using hTest))
    · rw [if_neg hTest]
      have hNotTest : ¬ (v.cfg.test = .uni ∨ v.cfg.test = .bi) := by simpa using hTest
      split_ifs
      all_goals exact iff_of_false not_false fun h => h.elim hNot hNotTest

/-- A START or a STOP leaves the bytes sent at 0, and any other config leaves
them as they were. -/
theorem txBytes_vtsHandleCfg (msg : Bytes) (rxCfg : VclTestCfg)
    (hDecode : msg.length = V.cfgSize → rxCfg = V.decode msg) :
    (vtsHandleCfg V env pool index nfds conn rxCfg msg.length).1.stats.txBytes =
      if msg.length ≠ V.cfgSize then conn.stats.txBytes
      else
        match (V.decode msg).test with
        | .uni | .bi => 0
        | _ => conn.stats.txBytes := by
  unfold vtsHandleCfg
  by_cases hSize : msg.length ≠ V.cfgSize
  · rw [if_pos hSize, if_pos hSize]
  · obtain rfl := hDecode (not_not.mp hSize)
    have hStarted :
        (vtsServerStartStop V env pool index conn (V.decode msg)).1.stats.txBytes = 0 := by
      obtain ⟨buf, stats, before, rest, hEq, -, hBytes, -, -⟩ :=
        vtsServerStartStop_eq V env pool index conn (V.decode msg)
      rw [hEq]
      exact hBytes
    rw [if_neg hSize, if_neg hSize]
    cases (V.decode msg).test with
    | none => rfl
    | echo => rfl
    | uni => exact hStarted
    | bi => exact hStarted
    | exit => rfl
    | unknown code => rfl

/-- The message is written back whole, from the buffer or from its segments. -/
theorem writeBack_message (hLimit : env.txLimit = none) (hSegments : useDs = true → conn.ds = ds)
    (hBuffer : useDs = false → conn.buf.bytes.take ds.data.length = ds.data) :
    (sentData (vtsServerWriteBack useDs env conn ds.data.length).2).flatten = ds.data ∧
      (vtsServerWriteBack useDs env conn ds.data.length).1.stats.txBytes =
        conn.stats.txBytes + UInt64.ofNat ds.data.length := by
  cases useDs with
  | false =>
      change [env.written (conn.buf.bytes.take ds.data.length)].flatten = _ ∧
        conn.stats.txBytes +
          UInt64.ofNat (env.written (conn.buf.bytes.take ds.data.length)).length = _
      rw [hBuffer rfl, written_of_no_limit hLimit]
      exact ⟨List.append_nil _, rfl⟩
  | true =>
      obtain rfl := hSegments rfl
      rw [vtsServerWriteBack_segments]
      by_cases hSecond : conn.ds.second.length ≠ 0
      · dsimp only
        rw [if_pos hSecond]
        change [env.written conn.ds.first, env.written conn.ds.second].flatten = _ ∧
          conn.stats.txBytes + UInt64.ofNat (env.written conn.ds.first).length +
            UInt64.ofNat (env.written conn.ds.second).length = _
        rw [written_of_no_limit hLimit, written_of_no_limit hLimit]
        refine ⟨by simp [Segments.data], ?_⟩
        rw [Segments.data, List.length_append, UInt64.ofNat_add, UInt64.add_assoc]
      · dsimp only
        rw [if_neg hSecond]
        have hData : conn.ds.data = conn.ds.first := by
          rw [Segments.data, List.length_eq_zero_iff.mp (not_not.mp hSecond), List.append_nil]
        change [env.written conn.ds.first].flatten = _ ∧
          conn.stats.txBytes + UInt64.ofNat (env.written conn.ds.first).length = _
        rw [written_of_no_limit hLimit, hData]
        exact ⟨List.append_nil _, rfl⟩

/-- A chunk counts as sent in a BI test. -/
theorem txBytes_vtsServerRx (rxBytes : Nat) :
    (vtsServerRx useDs env conn rxBytes).1.stats.txBytes =
      if conn.cfg.test = .bi then (vtsServerWriteBack useDs env conn rxBytes).1.stats.txBytes
      else conn.stats.txBytes := by
  unfold vtsServerRx
  dsimp only
  split_ifs <;> rfl

/-- The connection `vts_server_rx` gets: its magic number may have been looked
at before. -/
theorem looked_message (hFits : ds.data.length ≤ conn.bufSize.toNat) :
    let looked := if vtsConnExpectConfig (vtsConnRead useDs env conn ds) then
      vtsConnReadConfig V useDs (vtsConnRead useDs env conn ds)
      else vtsConnRead useDs env conn ds
    looked.cfg = conn.cfg ∧ looked.stats.txBytes = conn.stats.txBytes ∧
      (useDs = true → looked.ds = ds) ∧
      (useDs = false → looked.buf.bytes.take ds.data.length = ds.data) := by
  intro looked
  refine ⟨congrArg View.cfg (view_looked V useDs env conn ds), ?_, ?_, ?_⟩
  · unfold looked
    cases useDs <;> split_ifs <;> rfl
  · rintro rfl
    unfold looked
    split_ifs <;> rfl
  · rintro rfl
    have hWrite := conn.buf.take_write ds.data le_rfl hFits
    rw [List.take_length] at hWrite
    unfold looked
    split_ifs <;> exact hWrite

/-- What `vts_server_rx` sends and counts for a message. -/
theorem serverRx_message (hFits : ds.data.length ≤ conn.bufSize.toNat)
    (hLimit : env.txLimit = none)
    (hChoice : route V useDs (vtsConnRead useDs env conn ds) = .serverRx) :
    let handled := vtsHandleMessage V useDs env pool index nfds conn ds
    (sentData handled.calls).flatten = (if conn.cfg.test = .bi then ds.data else []) ∧
      handled.conn.stats.txBytes =
        if conn.cfg.test = .bi then conn.stats.txBytes + UInt64.ofNat ds.data.length
        else conn.stats.txBytes := by
  intro handled
  have hHandled := vtsHandleMessage_serverRx V useDs env pool index conn nfds ds hChoice
  obtain ⟨hCfg, hBefore, hSegments, hBuffer⟩ := looked_message V useDs env conn ds hFits
  dsimp only at hHandled
  generalize (if vtsConnExpectConfig (vtsConnRead useDs env conn ds) then
    vtsConnReadConfig V useDs (vtsConnRead useDs env conn ds)
    else vtsConnRead useDs env conn ds) = looked at hHandled hCfg hBefore hSegments hBuffer
  obtain ⟨hBack, hBackTx⟩ := writeBack_message useDs env looked ds hLimit hSegments hBuffer
  have hRead : sentData [readCall useDs conn.fd ds.data.length] = [] := by
    cases useDs <;> rfl
  unfold handled
  rw [hHandled]
  constructor
  · rw [← List.singleton_append, sentData_append, hRead, List.nil_append, sentData_vtsServerRx,
      hCfg]
    split_ifs
    · exact hBack
    · rfl
  · rw [txBytes_vtsServerRx, hCfg, hBackTx, hBefore]

/-- On the routes that release the segments both modes send the bytes of the
protocol's reply, and count them alike. -/
theorem releases_message (hAlloc : conn.isAlloc = true) (hLong : 4 ≤ ds.data.length)
    (hFits : ds.data.length ≤ conn.bufSize.toNat) (hLimit : env.txLimit = none)
    (hReleases : ((conn.view.count ds.data).route V ds.data).Releases) :
    let handled := vtsHandleMessage V useDs env pool index nfds conn ds
    (sentData handled.calls).flatten = ((conn.view.count ds.data).reply V ds.data).flatten ∧
      handled.conn.stats.txBytes =
        (conn.view.count ds.data).txAfter V ds.data conn.stats.txBytes := by
  intro handled
  have hRoute := route_eq_view V useDs env conn ds hLong hFits (Or.inr hReleases)
  unfold View.reply View.txAfter
  rw [← hRoute] at hReleases ⊢
  cases hChoice : route V useDs (vtsConnRead useDs env conn ds) with
  | handleCfg =>
      obtain ⟨-, hSent, -⟩ :=
        view_of_handleCfg V useDs env pool index nfds conn ds hAlloc hFits hChoice
      have hWritten (l : List Bytes) : l.map env.written = l :=
        List.map_id'' (written_of_no_limit hLimit) l
      have hConfig := txBytes_vtsHandleCfg V env pool index nfds
        (vtsConnReadConfig V useDs (vtsConnRead useDs env conn ds)) ds.data
        (V.decode ((vtsConnReadConfig V useDs (vtsConnRead useDs env conn ds)).buf.bytes.take
          V.cfgSize))
        (fun hSize => by
          rw [take_readConfig V useDs env conn ds hSize.ge le_rfl hFits,
            List.take_of_length_le hSize.le])
      have hBefore : (vtsConnReadConfig V useDs (vtsConnRead useDs env conn ds)).stats.txBytes =
          conn.stats.txBytes := by
        cases useDs <;> rfl
      rw [hBefore] at hConfig
      refine ⟨by rw [hSent, hWritten], ?_⟩
      unfold handled
      rw [vtsHandleMessage_handleCfg V useDs env pool index conn nfds ds hChoice]
      exact hConfig
  | serverRx =>
      obtain ⟨hSent, hTx⟩ :=
        serverRx_message V useDs env pool index nfds conn ds hFits hLimit hChoice
      refine ⟨hSent.trans ?_, hTx⟩
      show _ = (if conn.cfg.test = .bi then [ds.data] else []).flatten
      split_ifs
      · exact (List.append_nil _).symm
      · rfl
  | serverEcho =>
      rw [hChoice] at hReleases
      exact hReleases.elim
  | notDrained =>
      rw [hChoice] at hReleases
      exact hReleases.elim

end Message

/-- The two modes on one connection: what the later messages depend on, what
was sent, and the count of connections are the same. -/
structure SameConnection (i : Nat) (w w' : Worker) : Prop where
  slot : ∃ conn conn', w.connPool[i]? = some conn ∧ w'.connPool[i]? = some conn' ∧
    conn.view = conn'.view ∧ conn.stats.txBytes = conn'.stats.txBytes
  nfds : w.nfds = w'.nfds
  running : w.pc = .epollWait ∨ w.pc = .readAgain i → w'.pc = .epollWait ∨ w'.pc = .readAgain i

/-- Two reads that deliver the same message, and whose writes succeed. -/
def SameMessage (rx rx' : Rx) : Prop :=
  rx.msg = rx'.msg ∧ rx.env.txLimit = none ∧ rx'.env.txLimit = none

/-- The message is no shorter than the magic word, and is a config where one
is expected or belongs to a UNI or BI test. -/
def Worker.ReadsTest (V : VclTestApi) (i : Nat) (w : Worker) (rx : Rx) : Prop :=
  4 ≤ rx.msg.length ∧ ∃ conn ∈ w.connPool[i]?,
    (vtsConnExpectConfig (vtsConnRead false rx.env conn rx.ds) = true ∧
        rx.msg.take 4 = V.magicBytes) ∨
      conn.cfg.test = .uni ∨ conn.cfg.test = .bi

instance (V : VclTestApi) (i : Nat) (w : Worker) (rx : Rx) : Decidable (w.ReadsTest V i rx) :=
  inferInstanceAs (Decidable (_ ∧ _))

/-- What a worker wrote in a run of one connection. -/
def sentBytes (trace : List (Option Handled)) : Bytes :=
  (sentData (handledCalls trace)).flatten

/-- Two handled messages that sent the same bytes. -/
def SameSent (handled handled' : Option Handled) : Prop :=
  sentBytes [handled] = sentBytes [handled']

section Simulation

variable {V : VclTestApi} {i : Nat} {w w' : Worker} {rx rx' : Rx}

/-- What is sent adds up message by message. -/
theorem sentBytes_cons (handled : Option Handled) (rest : List (Option Handled)) :
    sentBytes (handled :: rest) = sentBytes [handled] ++ sentBytes rest := by
  unfold sentBytes
  rw [← List.flatten_append, ← sentData_append, handledCalls, handledCalls, handledCalls,
    ← List.flatMap_append, List.singleton_append]

/-- Traces that send the same at each message send the same. -/
theorem sentBytes_eq {trace trace' : List (Option Handled)} (h : List.Forall₂ SameSent trace trace') :
    sentBytes trace = sentBytes trace' := by
  induction h with
  | nil => rfl
  | @cons handled handled' rest rest' hSame _ ih =>
      have hFirst : sentBytes [handled] = sentBytes [handled'] := hSame
      rw [sentBytes_cons handled, sentBytes_cons handled', hFirst, ih]

/-- What the loop sends at one message. -/
theorem sentBytes_output {useDs : Bool} {conn : Conn} (hSlot : w.connPool[i]? = some conn) :
    sentBytes [(connection V useDs i).output w rx] = (sentData
      (vtsHandleMessage V useDs rx.env w.connPool i w.nfds conn rx.ds).calls).flatten := by
  rw [connection_output rx hSlot]
  unfold sentBytes handledCalls
  rw [List.flatMap_singleton]
  rfl

/-- Both modes treat one message alike. -/
theorem SameConnection.next (h : SameConnection i w w') (hMessage : SameMessage rx rx')
    (hReceives : w.Receives false i rx) (hTest : w.ReadsTest V i rx) :
    w'.Receives true i rx' ∧
      SameConnection i ((connection V false i).next w rx) ((connection V true i).next w' rx') ∧
      SameSent ((connection V false i).output w rx) ((connection V true i).output w' rx') := by
  obtain ⟨conn, conn', hSlot, hSlot', hView, hTx⟩ := h.slot
  obtain ⟨hMsg, hLimit, hLimit'⟩ := hMessage
  have hData : rx.ds.data = rx'.ds.data := hMsg
  obtain ⟨hPc, conn₁, hSlot₁, hAlloc, hSome, hFits⟩ := hReceives
  obtain rfl := Option.some.inj (hSlot.symm.trans hSlot₁)
  obtain ⟨hLong, conn₂, hSlot₂, hKind⟩ := hTest
  obtain rfl := Option.some.inj (hSlot.symm.trans hSlot₂)
  have hReleases : ((conn.view.count rx.ds.data).route V rx.ds.data).Releases := by
    rw [View.releases_iff, ← expectConfig_read false rx.env conn rx.ds]
    exact hKind
  have hAlloc' : conn'.isAlloc = true := (congrArg View.isAlloc hView).symm.trans hAlloc
  have hFits' : rx'.ds.data.length ≤ conn'.bufSize.toNat := by
    have hSize : conn.bufSize = conn'.bufSize := congrArg View.bufSize hView
    rw [← hSize, ← hData]
    exact hFits rfl
  have hLong' : 4 ≤ rx'.ds.data.length := by rwa [← hData]
  have hReleases' : ((conn'.view.count rx'.ds.data).route V rx'.ds.data).Releases := by
    rwa [← hView, ← hData]
  obtain ⟨hRoute, hAfter, hNfds⟩ := refines_message V false rx.env w.connPool i w.nfds conn rx.ds
    hAlloc hLong (hFits rfl) (Or.inl rfl)
  obtain ⟨hRoute', hAfter', hNfds'⟩ := refines_message V true rx'.env w'.connPool i w'.nfds conn' rx'.ds
    hAlloc' hLong' hFits' (Or.inr hReleases')
  obtain ⟨hSent, hSentTx⟩ := releases_message V false rx.env w.connPool i w.nfds conn rx.ds
    hAlloc hLong (hFits rfl) hLimit hReleases
  obtain ⟨hSent', hSentTx'⟩ := releases_message V true rx'.env w'.connPool i w'.nfds conn' rx'.ds
    hAlloc' hLong' hFits' hLimit' hReleases'
  have hCount : (vtsHandleMessage V false rx.env w.connPool i w.nfds conn rx.ds).nfds =
      (vtsHandleMessage V true rx'.env w'.connPool i w'.nfds conn' rx'.ds).nfds := by
    rw [hNfds, hNfds', hView, hData, h.nfds]
  refine ⟨⟨h.running hPc, conn', hSlot', hAlloc', ?_, fun hCopy => by cases hCopy⟩, ⟨?_, ?_, ?_⟩, ?_⟩
  · rwa [← hData]
  · refine ⟨_, _, connection_slot rx hSlot, connection_slot rx' hSlot', ?_, ?_⟩
    · rw [hAfter, hAfter', hView, hData]
    · rw [hSentTx, hSentTx', hView, hData, hTx]
  · rw [connection_next rx hSlot, connection_next rx' hSlot']
    exact hCount
  · intro hRunning
    rw [connection_next rx hSlot] at hRunning
    rw [connection_next rx' hSlot']
    refine pcAfter_running_iff.mpr fun hDone => pcAfter_running_iff.mp hRunning ?_
    rw [hRoute, hCount, hView, hData, ← hRoute']
    exact hDone
  · unfold SameSent
    rw [sentBytes_output hSlot, sentBytes_output hSlot', hSent, hSent', hView, hData]

/-- Copying and zero-copy runs of one connection, from the same state of it
and on the same messages, each a config where one is expected or the data of
a UNI or BI test: after every message they agree on the config, the buffer
size, the byte counters, the slot and `nfds`, and they send the same bytes in
the same order. -/
theorem zeroCopy_agrees {rxs rxs' : List Rx} (hSame : SameConnection i w w')
    (hMessages : List.Forall₂ SameMessage rxs rxs')
    (hAdmits : (connection V false i).Admits w rxs)
    (hTests : (connection V false i).Meets (Worker.ReadsTest V i) w rxs) :
    (connection V true i).Admits w' rxs' ∧
      (∀ n, SameConnection i ((connection V false i).run w (rxs.take n))
        ((connection V true i).run w' (rxs'.take n))) ∧
      sentBytes ((connection V false i).trace w rxs) =
        sentBytes ((connection V true i).trace w' rxs') := by
  have hRun {ms ms' : List Rx} (hMs : List.Forall₂ SameMessage ms ms')
      (hMeets : (connection V false i).Meets
        (fun w rx => w.Receives false i rx ∧ w.ReadsTest V i rx) w ms) :=
    Machine.simulates_run (N := connection V true i) (E := Worker.Receives true i)
      (O := SameSent) (fun _ _ _ _ hS hQ hC => hS.next hQ hC.1 hC.2) hSame hMs hMeets
  have hMeets := hAdmits.and hTests
  obtain ⟨hAdmits', -, hTrace⟩ := hRun hMessages hMeets
  refine ⟨hAdmits', fun n => ?_, sentBytes_eq hTrace⟩
  rw [← List.take_append_drop n rxs, Machine.meets_append] at hMeets
  exact (hRun (List.forall₂_take n hMessages) hMeets.1).2.1

/-- A BI test of six bytes, which come in two segments, and an EXIT. -/
theorem zeroCopy_agrees_bi :
    let bi : VclTestCfg := { defaultCfg with test := .bi, totalBytes := 6 }
    let exit : VclTestCfg := { defaultCfg with test := .exit }
    let w := ((server packedApi false).run (.initial packedApi 1)
      [.event ⟨.listener, false, false, true⟩ ⟨true, 5, 0, {}, []⟩]).worker
    let rxs : List Rx := [{ ds := ⟨packedApi.encode bi, []⟩ }, { ds := ⟨[200, 1, 2], [3, 4, 5]⟩ },
      { ds := ⟨packedApi.encode exit, []⟩ }]
    sentBytes ((connection packedApi false 0).trace w rxs) =
      sentBytes ((connection packedApi true 0).trace w rxs) := by
  intro bi exit w rxs
  have hSame : SameConnection 0 w w := ⟨⟨_, _, rfl, rfl, rfl, rfl⟩, rfl, id⟩
  have hMessages : List.Forall₂ SameMessage rxs rxs :=
    List.forall₂_same.mpr fun rx hRx => by
      simp only [rxs, List.mem_cons, List.not_mem_nil, or_false] at hRx
      rcases hRx with rfl | rfl | rfl <;> exact ⟨rfl, rfl, rfl⟩
  have hReads : (connection packedApi false 0).Admits w rxs ∧
      (connection packedApi false 0).Meets (Worker.ReadsTest packedApi 0) w rxs := by
    decide +kernel
  obtain ⟨hAdmits, hTests⟩ := hReads
  exact (zeroCopy_agrees hSame hMessages hAdmits hTests).2.2

end Simulation

end DpdkPerf.VclTestServer
