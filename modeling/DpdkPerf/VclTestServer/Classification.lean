import DpdkPerf.VclTestServer.Delivery
import DpdkPerf.VclTestServer.Layout

/-! One UNI or BI test from its config to the message that ends it: which
reads are taken for data, and when the stop time is taken. -/
namespace DpdkPerf.VclTestServer

def receivedBytes (rxs : List Rx) : Nat :=
  (rxs.map fun rx => rx.msg.length).sum

theorem receivedBytes_cons (rx : Rx) (rest : List Rx) :
    receivedBytes (rx :: rest) = rx.msg.length + receivedBytes rest := by
  simp [receivedBytes]

theorem receivedBytes_append (first second : List Rx) :
    receivedBytes (first ++ second) = receivedBytes first + receivedBytes second := by
  simp [receivedBytes]

/-- A run that reads anything receives bytes. -/
theorem receivedBytes_pos {V : VclTestApi} {useDs : Bool} {i : Nat} {w : Worker} {rxs : List Rx}
    (hAdmits : (connection V useDs i).Admits w rxs) (h : rxs ≠ []) : 0 < receivedBytes rxs := by
  cases rxs with
  | nil => exact absurd rfl h
  | cons rx rest =>
      obtain ⟨⟨-, -, -, -, hSome, -⟩, -⟩ := (Machine.admits_cons ..).mp hAdmits
      have hPos : 0 < rx.msg.length := List.length_pos_iff.mpr hSome
      rw [receivedBytes_cons]
      omega

/-- Reads after which the count is below 128 hold at least four bytes and do
not begin with the magic word, from a given count on. -/
def PlainBelow128 (V : VclTestApi) : Nat → List Rx → Prop
  | _, [] => True
  | count, rx :: rest =>
      (count + rx.msg.length < 128 → 4 ≤ rx.msg.length ∧ rx.msg.take 4 ≠ V.magicBytes) ∧
        PlainBelow128 V (count + rx.msg.length) rest

instance PlainBelow128.decidable (V : VclTestApi) :
    (count : Nat) → (rxs : List Rx) → Decidable (PlainBelow128 V count rxs)
  | _, [] => .isTrue trivial
  | count, rx :: rest =>
      have := PlainBelow128.decidable V (count + rx.msg.length) rest
      inferInstanceAs (Decidable ((_ → _ ∧ _) ∧ _))

/-- Chunks in front of others are as plain as all of them. -/
theorem PlainBelow128.of_append {V : VclTestApi} {count : Nat} {first second : List Rx}
    (h : PlainBelow128 V count (first ++ second)) : PlainBelow128 V count first := by
  induction first generalizing count with
  | nil => trivial
  | cons rx rest ih => exact ⟨h.1, ih h.2⟩

/-- How often the stop time was taken. -/
def stopTimes (trace : List (Option Handled)) : Nat :=
  (handledCalls trace).count .stopTime

/-- The stop times are counted message by message. -/
theorem stopTimes_cons (handled : Handled) (rest : List (Option Handled)) :
    stopTimes (some handled :: rest) = handled.calls.count .stopTime + stopTimes rest := by
  unfold stopTimes handledCalls
  rw [List.flatMap_cons, List.count_append]
  rfl

section Chunk

variable (V : VclTestApi) (env : Env) (pool : List Conn) (index : Nat) (nfds : Int) (conn : Conn)
  (ds : Segments)

/-- The counter is exact while it does not wrap. -/
theorem toNat_count {v : View} {msg : Bytes} (h : v.rxBytes.toNat + msg.length < 2 ^ 64) :
    (v.count msg).rxBytes.toNat = v.rxBytes.toNat + msg.length := by
  change (v.rxBytes + UInt64.ofNat msg.length).toNat = _
  rw [UInt64.toNat_add, UInt64.toNat_ofNat']
  omega

/-- In a test a config is expected below 128 bytes and beyond the total. -/
theorem expectsConfig_iff {v : View} (hTest : v.cfg.test ≠ .echo) :
    v.expectsConfig = true ↔
      v.rxBytes.toNat < 128 ∨ v.cfg.totalBytes.toNat < v.rxBytes.toNat := by
  have hBelow : v.rxBytes < 128 ↔ v.rxBytes.toNat < 128 := UInt64.lt_iff_toNat_lt
  have hAbove : v.rxBytes > v.cfg.totalBytes ↔ v.cfg.totalBytes.toNat < v.rxBytes.toNat :=
    UInt64.lt_iff_toNat_lt
  simp [View.expectsConfig, hTest, hBelow, hAbove]

theorem ne_echo_of_test {test : TestType} (h : test = .uni ∨ test = .bi) : test ≠ .echo := by
  rcases h with rfl | rfl <;> decide

/-- A chunk of a running test is data: below 128 bytes because it does not
begin with the magic word, and from there on because the total is not
exceeded. -/
theorem route_chunk (hTest : conn.cfg.test = .uni ∨ conn.cfg.test = .bi)
    (hFits : ds.data.length ≤ conn.bufSize.toNat)
    (hTotal : conn.stats.rxBytes.toNat + ds.data.length ≤ conn.cfg.totalBytes.toNat)
    (hPlain : conn.stats.rxBytes.toNat + ds.data.length < 128 →
      4 ≤ ds.data.length ∧ ds.data.take 4 ≠ V.magicBytes) :
    route V false (vtsConnRead false env conn ds) = .serverRx := by
  have hCount : (conn.view.count ds.data).rxBytes.toNat =
      conn.stats.rxBytes.toNat + ds.data.length :=
    toNat_count (Nat.lt_of_le_of_lt hTotal conn.cfg.totalBytes.toNat_lt)
  have hNotConfig : route V false (vtsConnRead false env conn ds) ≠ .handleCfg := by
    intro hConfig
    obtain ⟨hExpect, hMagic⟩ := route_eq_handleCfg.mp hConfig
    rw [expectConfig_read, expectsConfig_iff (ne_echo_of_test hTest), hCount] at hExpect
    have hBelow : conn.stats.rxBytes.toNat + ds.data.length < 128 :=
      hExpect.resolve_right (Nat.not_lt.mpr hTotal)
    obtain ⟨hLong, hNoMagic⟩ := hPlain hBelow
    rw [hasMagic_readConfig V false env conn ds hLong hFits] at hMagic
    exact hNoMagic (of_decide_eq_true hMagic)
  exact (route_eq_serverRx hNotConfig).mpr (by rw [cfg_read]; exact hTest)

/-- A chunk is written back in a BI test, and the time is taken once the total
is there. -/
theorem vtsServerRx_copy_calls (rxBytes : Nat) :
    (vtsServerRx false env conn rxBytes).2 =
      (if conn.cfg.test = .bi then (vtsServerWriteBack false env conn rxBytes).2 else []) ++
        if conn.stats.rxBytes ≥ conn.cfg.totalBytes then [.stopTime] else [] := by
  have hCounts : ((if conn.cfg.test = .bi then vtsServerWriteBack false env conn rxBytes
      else (conn, [])).1.stats.rxBytes ≥ (if conn.cfg.test = .bi then
        vtsServerWriteBack false env conn rxBytes else (conn, [])).1.cfg.totalBytes) ↔
      conn.stats.rxBytes ≥ conn.cfg.totalBytes := by
    split_ifs <;> exact Iff.rfl
  have hWritten : (if conn.cfg.test = .bi then vtsServerWriteBack false env conn rxBytes
      else (conn, [])).2 =
      if conn.cfg.test = .bi then (vtsServerWriteBack false env conn rxBytes).2 else [] := by
    split_ifs <;> rfl
  unfold vtsServerRx
  dsimp only
  rw [← hWritten]
  by_cases hStop : conn.stats.rxBytes ≥ conn.cfg.totalBytes
  · rw [if_pos (hCounts.mpr hStop), if_pos hStop]
    simp
  · rw [if_neg (mt hCounts.mp hStop), if_neg hStop]
    simp

/-- The calls of a chunk that is data: it is written back in a BI test, and
the stop time is taken if the total is reached. -/
theorem calls_chunk (hLimit : env.txLimit = none) (hFits : ds.data.length ≤ conn.bufSize.toNat)
    (hRoute : route V false (vtsConnRead false env conn ds) = .serverRx) :
    (vtsHandleMessage V false env pool index nfds conn ds).calls =
      .read conn.fd ds.data.length ::
        ((if conn.cfg.test = .bi then [.write conn.fd ds.data] else []) ++
          if (conn.view.count ds.data).rxBytes ≥ conn.cfg.totalBytes then [.stopTime] else []) := by
  have hLooked := looked_copy V (vtsConnRead false env conn ds)
  have hBuffer := take_read env conn ds hFits
  have hBack : (vtsServerWriteBack false env (vtsConnRead false env conn ds) ds.data.length).2 =
      [.write conn.fd ds.data] := by
    change [Call.write conn.fd (env.written
      ((vtsConnRead false env conn ds).buf.bytes.take ds.data.length))] = _
    rw [hBuffer, written_of_no_limit hLimit]
  rw [vtsHandleMessage_serverRx V false env pool index conn nfds ds hRoute]
  dsimp only
  rw [hLooked, vtsServerRx_copy_calls, hBack, cfg_read]
  rfl

end Chunk

section Test

variable {V : VclTestApi} {i : Nat} {w : Worker} {conn : Conn}

/-- What the worker makes of one chunk of a test. -/
structure ChunkHandled (V : VclTestApi) (i : Nat) (w : Worker) (conn : Conn) (rx : Rx)
    (handled : Handled) : Prop where
  output : (connection V false i).output w rx = some handled
  slot : ((connection V false i).next w rx).connPool[i]? = some handled.conn
  route : handled.route = .serverRx
  cfg : handled.conn.cfg = conn.cfg
  rxBytes : handled.conn.stats.rxBytes.toNat = conn.stats.rxBytes.toNat + rx.msg.length
  stops : handled.calls.count .stopTime =
    if conn.stats.rxBytes.toNat + rx.msg.length = conn.cfg.totalBytes.toNat then 1 else 0
  sent : sentData handled.calls = if conn.cfg.test = .bi then [rx.msg] else []

/-- A chunk of a test is handled as one. -/
theorem chunkHandled {rx : Rx} (hSlot : w.connPool[i]? = some conn)
    (hTest : conn.cfg.test = .uni ∨ conn.cfg.test = .bi) (hReceives : w.Receives false i rx)
    (hTotal : conn.stats.rxBytes.toNat + rx.msg.length ≤ conn.cfg.totalBytes.toNat)
    (hPlain : conn.stats.rxBytes.toNat + rx.msg.length < 128 →
      4 ≤ rx.msg.length ∧ rx.msg.take 4 ≠ V.magicBytes)
    (hLimit : rx.env.txLimit = none) : ∃ handled, ChunkHandled V i w conn rx handled := by
  obtain ⟨-, conn', hSlot', -, -, hFits⟩ := hReceives
  obtain rfl := Option.some.inj (hSlot.symm.trans hSlot')
  have hRoute : route V false (vtsConnRead false rx.env conn rx.ds) = .serverRx :=
    route_chunk V rx.env conn rx.ds hTest (hFits rfl) hTotal hPlain
  have hCalls := calls_chunk V rx.env w.connPool i w.nfds conn rx.ds hLimit (hFits rfl) hRoute
  obtain ⟨hView, -⟩ := view_of_not_handleCfg V false rx.env w.connPool i w.nfds conn rx.ds
    (by rw [hRoute]; decide)
  have hCount : (conn.view.count rx.msg).rxBytes.toNat =
      conn.stats.rxBytes.toNat + rx.msg.length :=
    toNat_count (Nat.lt_of_le_of_lt hTotal conn.cfg.totalBytes.toNat_lt)
  have hReached : (conn.view.count rx.ds.data).rxBytes ≥ conn.cfg.totalBytes ↔
      conn.stats.rxBytes.toNat + rx.msg.length = conn.cfg.totalBytes.toNat := by
    show conn.cfg.totalBytes ≤ (conn.view.count rx.msg).rxBytes ↔ _
    rw [UInt64.le_iff_toNat_le, hCount]
    omega
  exact
    ⟨vtsHandleMessage V false rx.env w.connPool i w.nfds conn rx.ds,
      { output := connection_output rx hSlot
        slot := connection_slot rx hSlot
        route := by rw [vtsHandleMessage_route, hRoute]
        cfg := congrArg View.cfg hView
        rxBytes := by
          rw [← hCount]
          exact congrArg (fun v : View => v.rxBytes.toNat) hView
        stops := by
          rw [hCalls]
          by_cases hStop : conn.stats.rxBytes.toNat + rx.msg.length = conn.cfg.totalBytes.toNat
          · rw [if_pos (hReached.mpr hStop), if_pos hStop]
            split_ifs <;> rfl
          · rw [if_neg (mt hReached.mp hStop), if_neg hStop]
            split_ifs <;> rfl
        sent := by
          rw [hCalls]
          split_ifs <;> rfl }⟩

/-- What the worker makes of the chunks of a test that has received some
bytes before. -/
structure ChunksHandled (V : VclTestApi) (i : Nat) (w : Worker) (conn : Conn)
    (chunks : List Rx) : Prop where
  routes : ∀ handled ∈ (connection V false i).trace w chunks,
    handled.map Handled.route = some .serverRx
  slot : ∃ conn', ((connection V false i).run w chunks).connPool[i]? = some conn' ∧
    conn'.cfg = conn.cfg ∧
    conn'.stats.rxBytes.toNat = conn.stats.rxBytes.toNat + receivedBytes chunks
  stops : stopTimes ((connection V false i).trace w chunks) =
    if chunks ≠ [] ∧ conn.stats.rxBytes.toNat + receivedBytes chunks = conn.cfg.totalBytes.toNat
    then 1 else 0
  sent : sentData (handledCalls ((connection V false i).trace w chunks)) =
    if conn.cfg.test = .bi then chunks.map Rx.msg else []

/-- The induction over the chunks. It carries the count of received bytes,
which the total bounds. -/
theorem chunksHandled {chunks : List Rx} (hSlot : w.connPool[i]? = some conn)
    (hTest : conn.cfg.test = .uni ∨ conn.cfg.test = .bi)
    (hAdmits : (connection V false i).Admits w chunks)
    (hTotal : conn.stats.rxBytes.toNat + receivedBytes chunks ≤ conn.cfg.totalBytes.toNat)
    (hPlain : PlainBelow128 V conn.stats.rxBytes.toNat chunks)
    (hLimit : ∀ rx ∈ chunks, rx.env.txLimit = none) : ChunksHandled V i w conn chunks := by
  induction chunks generalizing w conn with
  | nil =>
      exact
        { routes := fun _ h => absurd h List.not_mem_nil
          slot := ⟨conn, hSlot, rfl, rfl⟩
          stops := by rw [if_neg fun h => h.1 rfl]; rfl
          sent := by rw [List.map_nil, ite_self]; rfl }
  | cons rx rest ih =>
      rw [Machine.admits_cons] at hAdmits
      rw [List.forall_mem_cons] at hLimit
      obtain ⟨hReceives, hRest⟩ := hAdmits
      have hBytes := receivedBytes_cons rx rest
      rw [hBytes] at hTotal
      obtain ⟨handled, hFirst⟩ :=
        chunkHandled hSlot hTest hReceives (by omega) hPlain.1 hLimit.1
      have hMore := ih hFirst.slot (by rw [hFirst.cfg]; exact hTest) hRest
        (by rw [hFirst.cfg, hFirst.rxBytes]; omega) (by rw [hFirst.rxBytes]; exact hPlain.2)
        hLimit.2
      have hTrace : (connection V false i).trace w (rx :: rest) = some handled ::
          (connection V false i).trace ((connection V false i).next w rx) rest := by
        rw [Machine.trace_cons, hFirst.output]
      refine ⟨?_, ?_, ?_, ?_⟩
      · rw [hTrace, List.forall_mem_cons]
        exact ⟨congrArg some hFirst.route, hMore.routes⟩
      · obtain ⟨last, hLast, hLastCfg, hLastRx⟩ := hMore.slot
        refine ⟨last, hLast, hLastCfg.trans hFirst.cfg, ?_⟩
        rw [hLastRx, hFirst.rxBytes, hBytes]
        omega
      · rw [hTrace, stopTimes_cons, hFirst.stops, hMore.stops, hFirst.cfg, hFirst.rxBytes, hBytes]
        cases rest with
        | nil => simp [receivedBytes]
        | cons rx' more =>
            have hPos' := receivedBytes_pos hRest (List.cons_ne_nil rx' more)
            rw [if_neg (by omega)]
            simp only [ne_eq, reduceCtorEq, not_false_eq_true, true_and, Nat.add_assoc, Nat.zero_add]
      · have hSplit : handledCalls (some handled :: (connection V false i).trace
            ((connection V false i).next w rx) rest) = handled.calls ++ handledCalls
            ((connection V false i).trace ((connection V false i).next w rx) rest) := rfl
        rw [hTrace, hSplit, sentData_append, hFirst.sent, hMore.sent, hFirst.cfg]
        split_ifs <;> rfl

/-- The slot after a UNI or BI config of the right size. -/
theorem slot_started {rx : Rx} (hReceives : w.Receives false i rx)
    (hConfig : ((connection V false i).output w rx).map Handled.route = some .handleCfg)
    (hSize : rx.msg.length = V.cfgSize)
    (hTest : (V.decode rx.msg).test = .uni ∨ (V.decode rx.msg).test = .bi) :
    ∃ started, ((connection V false i).next w rx).connPool[i]? = some started ∧
      started.cfg.test = (V.decode rx.msg).test ∧
      started.cfg.totalBytes = (V.decode rx.msg).totalBytes ∧ started.stats.rxBytes = 0 := by
  obtain ⟨-, conn, hSlot, hAlloc, -, hFits⟩ := hReceives
  rw [connection_output rx hSlot, Option.map_some, vtsHandleMessage_route] at hConfig
  obtain ⟨hView, -, -⟩ := view_of_handleCfg V false rx.env w.connPool i w.nfds conn rx.ds hAlloc
    (hFits rfl) (Option.some.inj hConfig)
  have hAfter : ((conn.view.count rx.msg).handleCfg V rx.msg).1 =
      { (conn.view.count rx.msg).applyCfg (startedCfg conn.fd (V.decode rx.msg)) with
        rxBytes := 0 } := by
    unfold View.handleCfg
    rw [if_neg (not_not.mpr hSize)]
    rcases hTest with hUni | hBi
    · simp only [hUni]
      rfl
    · simp only [hBi]
      rfl
  have hStarted := hView.trans hAfter
  refine ⟨_, connection_slot rx hSlot, ?_, ?_, congrArg View.rxBytes hStarted⟩
  · refine (congrArg (fun v : View => v.cfg.test) hStarted).trans ?_
    unfold View.applyCfg startedCfg
    dsimp only
    split_ifs <;> rfl
  · refine (congrArg (fun v : View => v.cfg.totalBytes) hStarted).trans ?_
    unfold View.applyCfg startedCfg
    dsimp only
    split_ifs <;> rfl

/-- The message after the last chunk is above the total, so it is a config if
it begins with the magic word. -/
theorem route_last {rx : Rx} {conn : Conn} (hSlot : w.connPool[i]? = some conn)
    (hTest : conn.cfg.test = .uni ∨ conn.cfg.test = .bi)
    (hTotal : conn.stats.rxBytes = conn.cfg.totalBytes)
    (hNoWrap : conn.cfg.totalBytes.toNat + rx.msg.length < 2 ^ 64)
    (hReceives : w.Receives false i rx) (hLong : 4 ≤ rx.msg.length)
    (hMagic : rx.msg.take 4 = V.magicBytes) :
    ((connection V false i).output w rx).map Handled.route = some .handleCfg := by
  obtain ⟨-, conn', hSlot', -, -, hFits⟩ := hReceives
  obtain rfl := Option.some.inj (hSlot.symm.trans hSlot')
  have hRx : conn.view.rxBytes = conn.cfg.totalBytes := hTotal
  have hCount : (conn.view.count rx.msg).rxBytes.toNat =
      conn.cfg.totalBytes.toNat + rx.msg.length := by
    rw [toNat_count (by rw [hRx]; exact hNoWrap), hRx]
  have hExpect : (conn.view.count rx.msg).expectsConfig = true := by
    refine (expectsConfig_iff (ne_echo_of_test hTest)).mpr (Or.inr ?_)
    rw [hCount]
    change conn.cfg.totalBytes.toNat < _
    omega
  rw [connection_output rx hSlot, Option.map_some, vtsHandleMessage_route]
  refine congrArg some (route_eq_handleCfg.mpr ⟨?_, ?_⟩)
  · rw [expectConfig_read]
    exact hExpect
  · rw [hasMagic_readConfig V false rx.env conn rx.ds hLong (hFits rfl)]
    exact decide_eq_true hMagic

/-- A complete test. After a UNI or BI config with a total of `T` bytes, every
read of the `T` bytes is taken for data, as long as no read below 128 bytes
looks like a config or is too short to tell. The message of a config's size
that follows is taken for a config. The stop time is taken once, with the
last chunk, and a BI test writes back every chunk in order. -/
theorem classification_of_test {config last : Rx} {chunks : List Rx}
    (hAdmits : (connection V false i).Admits w (config :: (chunks ++ [last])))
    (hConfig : ((connection V false i).output w config).map Handled.route = some .handleCfg)
    (hSize : config.msg.length = V.cfgSize)
    (hTest : (V.decode config.msg).test = .uni ∨ (V.decode config.msg).test = .bi)
    (hNoWrap : (V.decode config.msg).totalBytes.toNat + V.cfgSize < 2 ^ 64)
    (hSum : receivedBytes chunks = (V.decode config.msg).totalBytes.toNat)
    (hPlain : PlainBelow128 V 0 chunks) (hLimit : ∀ rx ∈ chunks, rx.env.txLimit = none)
    (hLastSize : last.msg.length = V.cfgSize) (hLastMagic : last.msg.take 4 = V.magicBytes) :
    let started := (connection V false i).next w config
    (∀ handled ∈ (connection V false i).trace started chunks,
        handled.map Handled.route = some .serverRx) ∧
      ((connection V false i).output ((connection V false i).run started chunks) last).map
        Handled.route = some .handleCfg ∧
      stopTimes ((connection V false i).trace started chunks) =
        (if 0 < (V.decode config.msg).totalBytes.toNat then 1 else 0) ∧
      (∀ init final, chunks = init ++ [final] →
        stopTimes ((connection V false i).trace started init) = 0) ∧
      ((V.decode config.msg).test = .bi →
        sentData (handledCalls ((connection V false i).trace started chunks)) =
          chunks.map Rx.msg) := by
  intro started
  rw [Machine.admits_cons, Machine.admits_append] at hAdmits
  obtain ⟨hReceives, hChunks, hLast⟩ := hAdmits
  obtain ⟨conn, hSlot, hConnTest, hConnTotal, hConnRx⟩ := slot_started hReceives hConfig hSize hTest
  rw [← hConnTest] at hTest
  rw [← hConnTotal] at hNoWrap hSum
  have hZero : conn.stats.rxBytes.toNat = 0 := by rw [hConnRx]; rfl
  have hHandled : ChunksHandled V i started conn chunks :=
    chunksHandled hSlot hTest hChunks (by rw [hZero, hSum]; omega) (by rwa [hZero]) hLimit
  rw [← hConnTotal, ← hConnTest]
  refine ⟨hHandled.routes, ?_, ?_, ?_, ?_⟩
  · obtain ⟨after, hAfterSlot, hAfterCfg, hAfterRx⟩ := hHandled.slot
    have hReceivesLast := ((Machine.admits_cons ..).mp hLast).1
    refine route_last hAfterSlot (by rwa [hAfterCfg]) ?_ ?_ hReceivesLast ?_ hLastMagic
    · rw [hAfterCfg, ← UInt64.toNat_inj, hAfterRx, hZero, hSum, Nat.zero_add]
    · rw [hAfterCfg, hLastSize]
      exact hNoWrap
    · rw [hLastSize]
      exact four_le_cfgSize V
  · rw [hHandled.stops, hZero, hSum, Nat.zero_add]
    cases chunks with
    | nil =>
        have hNone : conn.cfg.totalBytes.toNat = 0 := hSum.symm
        rw [hNone]
        simp
    | cons rx rest =>
        have hPos := receivedBytes_pos hChunks (List.cons_ne_nil rx rest)
        rw [hSum] at hPos
        rw [if_pos ⟨List.cons_ne_nil rx rest, rfl⟩, if_pos hPos]
  · rintro init final rfl
    obtain ⟨hInit, hFinal⟩ := (Machine.admits_append ..).mp hChunks
    have hPos := receivedBytes_pos hFinal (List.cons_ne_nil final [])
    rw [receivedBytes_append] at hSum
    have hInitHandled : ChunksHandled V i started conn init :=
      chunksHandled hSlot hTest hInit (by rw [hZero]; omega) (by rw [hZero]; exact hPlain.of_append)
        fun rx hRx => hLimit rx (List.mem_append_left _ hRx)
    rw [hInitHandled.stops, hZero]
    exact if_neg fun h => by omega
  · intro hBi
    rw [hHandled.sent, if_pos hBi]

/-- A BI test of 130 bytes in chunks of 100, 29 and 1, ended by an EXIT. -/
theorem classification_of_test_bi :
    let bi : VclTestCfg := { defaultCfg with test := .bi, totalBytes := 130 }
    let exit : VclTestCfg := { defaultCfg with test := .exit }
    let w := ((server packedApi false).run (.initial packedApi 1)
      [.event ⟨.listener, false, false, true⟩ ⟨true, 5, 0, {}, []⟩]).worker
    let config : Rx := { ds := ⟨packedApi.encode bi, []⟩ }
    let chunks : List Rx := [{ ds := ⟨List.replicate 100 7, []⟩ },
      { ds := ⟨List.replicate 29 206, []⟩ }, { ds := ⟨[206], []⟩ }]
    let last : Rx := { ds := ⟨packedApi.encode exit, []⟩ }
    let started := (connection packedApi false 0).next w config
    ((connection packedApi false 0).output ((connection packedApi false 0).run started chunks)
        last).map Handled.route = some .handleCfg ∧
      stopTimes ((connection packedApi false 0).trace started chunks) = 1 := by
  intro bi exit w config chunks last started
  have hDecode : packedApi.decode config.msg = bi := by
    change packedApi.decode (packedApi.encode bi ++ []) = bi
    rw [List.append_nil, packedApi.decode_encode]
  have hReads : (connection packedApi false 0).Admits w (config :: (chunks ++ [last])) ∧
      ((connection packedApi false 0).output w config).map Handled.route = some .handleCfg := by
    decide +kernel
  obtain ⟨hAdmits, hConfig⟩ := hReads
  have hTest := classification_of_test hAdmits hConfig (by decide +kernel)
    (Or.inr (by rw [hDecode])) (by rw [hDecode]; decide) (by rw [hDecode]; decide +kernel)
    (by decide +kernel) (by decide +kernel) (by decide +kernel) (by decide +kernel)
  rw [hDecode] at hTest
  exact ⟨hTest.2.1, hTest.2.2.1⟩

end Test

end DpdkPerf.VclTestServer
