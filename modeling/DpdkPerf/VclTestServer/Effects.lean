import DpdkPerf.VclTestServer.Worker

/-! What handling a message can do besides changing the counters, the buffer
and the config of its connection: which calls it makes and in what order, and
when it gives the slot up. -/
namespace DpdkPerf.VclTestServer

/-- A call that neither changes the open sessions nor touches segments. -/
def Call.Local : Call → Prop
  | .write _ _ | .startTime | .stopTime | .statsDump _ _ => True
  | _ => False

/-- The slot keeps its client, and only local calls are made. -/
structure Keeps (conn : Conn) (result : Conn × List Call) : Prop where
  isAlloc : result.1.isAlloc = conn.isAlloc
  fd : result.1.fd = conn.fd
  calls : ∀ call ∈ result.2, call.Local

/-- Two parts that keep a connection keep it together. -/
theorem Keeps.then {conn : Conn} {first : Conn × List Call} {second : Conn × List Call} (h : Keeps conn first)
    (hThen : Keeps first.1 second) : Keeps conn (second.1, first.2 ++ second.2) where
  isAlloc := hThen.isAlloc.trans h.isAlloc
  fd := hThen.fd.trans h.fd
  calls call hCall := by
    rcases List.mem_append.mp hCall with hFirst | hSecond
    · exact h.calls call hFirst
    · exact hThen.calls call hSecond

variable (V : VclTestApi) (useDs : Bool) (env : Env) (pool : List Conn) (index : Nat) (conn : Conn)

/-- A config that is applied frees no record and closes nothing. -/
theorem keeps_syncConfigAndReply (rxCfg : VclTestCfg) :
    Keeps conn (syncConfigAndReply V env conn rxCfg) where
  isAlloc := rfl
  fd := rfl
  calls call hCall := by
    rw [List.mem_singleton.mp hCall]
    trivial

/-- A round of the loop over the pool changes the counters only. -/
theorem accumulateSlot_eq (acc : Conn × List Call) (i : Nat) :
    ∃ stats dumps, accumulateSlot V pool index acc i =
      ({ acc.1 with stats := stats }, acc.2 ++ dumps) ∧
        ∀ call ∈ dumps, ∃ connection counters, call = .statsDump connection counters := by
  obtain ⟨tester, calls⟩ := acc
  have hNone : ∀ call ∈ ([] : List Call), ∃ connection counters,
      call = .statsDump connection counters := fun _ h => absurd h List.not_mem_nil
  unfold accumulateSlot
  dsimp only
  split_ifs
  all_goals first
    | exact ⟨_, _, rfl, fun call hCall => ⟨_, _, List.mem_singleton.mp hCall⟩⟩
    | exact ⟨_, [], by rw [List.append_nil], hNone⟩

/-- Going over the pool only changes the stats of one record. -/
theorem foldl_accumulateSlot_eq (slots : List Nat) (acc : Conn × List Call) :
    ∃ stats dumps, slots.foldl (accumulateSlot V pool index) acc =
      ({ acc.1 with stats := stats }, acc.2 ++ dumps) ∧
        ∀ call ∈ dumps, ∃ connection counters, call = .statsDump connection counters := by
  induction slots generalizing acc with
  | nil =>
      exact ⟨acc.1.stats, [], by rw [List.append_nil]; rfl, fun _ h => absurd h List.not_mem_nil⟩
  | cons i rest ih =>
      obtain ⟨stats, dumps, hRound, hDumps⟩ := accumulateSlot_eq V pool index acc i
      obtain ⟨stats', dumps', hRest, hDumps'⟩ := ih (accumulateSlot V pool index acc i)
      refine ⟨stats', dumps ++ dumps', ?_, fun call hCall => ?_⟩
      · rw [List.foldl_cons, hRest, hRound, List.append_assoc]
      · rcases List.mem_append.mp hCall with h | h
        · exact hDumps call h
        · exact hDumps' call h

/-- The config a test is started or stopped with. -/
def startedCfg (fd : Int32) (rxCfg : VclTestCfg) : VclTestCfg :=
  if rxCfg.ctrlHandle = 0xffffffff then { rxCfg with ctrlHandle := fd.toUInt32 } else rxCfg

/-- Start and stop of a test differ in the results they report before the
config is applied and in the time they take after it. -/
theorem vtsServerStartStop_eq (rxCfg : VclTestCfg) :
    ∃ buf stats before after,
      vtsServerStartStop V env pool index conn rxCfg =
        (let synced := syncConfigAndReply V env { conn with buf := buf } (startedCfg conn.fd rxCfg)
        ({ synced.1 with stats := stats }, before ++ synced.2 ++ after)) ∧
      stats.rxBytes = 0 ∧ stats.txBytes = 0 ∧
      (∀ call ∈ before, ∃ connection counters, call = .statsDump connection counters) ∧
      (∀ call ∈ after, call = .startTime) := by
  have hNone : ∀ call ∈ ([] : List Call), ∃ connection counters,
      call = .statsDump connection counters := fun _ h => absurd h List.not_mem_nil
  unfold vtsServerStartStop startedCfg
  by_cases hStop : rxCfg.ctrlHandle = conn.fd.toUInt32
  · have hStarted : (if rxCfg.ctrlHandle = 0xffffffff then
        { rxCfg with ctrlHandle := conn.fd.toUInt32 } else rxCfg) = rxCfg := by
      rw [← hStop, ite_self]
    obtain ⟨stats, dumps, hFold, hDumps⟩ :=
      foldl_accumulateSlot_eq V pool index (List.range pool.length) (conn, [])
    refine ⟨conn.buf, {}, dumps ++ [.statsDump none stats], [], ?_, rfl, rfl, ?_, by simp⟩
    · rw [if_pos hStop, hFold, hStarted]
      simp only [List.append_nil]
      rfl
    · intro call hCall
      rcases List.mem_append.mp hCall with h | h
      · exact hDumps call h
      · exact ⟨_, _, List.mem_singleton.mp h⟩
  · rw [if_neg hStop]
    by_cases hSet : rxCfg.ctrlHandle = 0xffffffff
    · rw [if_pos hSet, if_pos hSet]
      exact ⟨_, { start := env.now }, [], [.startTime], rfl, rfl, rfl, hNone, by simp⟩
    · rw [if_neg hSet, if_neg hSet]
      exact ⟨conn.buf, { start := env.now }, [], [.startTime], rfl, rfl, rfl, hNone, by simp⟩

theorem keeps_vtsServerStartStop (rxCfg : VclTestCfg) :
    Keeps conn (vtsServerStartStop V env pool index conn rxCfg) := by
  obtain ⟨buf, stats, before, after, hEq, -, -, hBefore, hAfter⟩ :=
    vtsServerStartStop_eq V env pool index conn rxCfg
  rw [hEq]
  refine ⟨rfl, rfl, fun call hCall => ?_⟩
  rcases List.mem_append.mp hCall with hFirst | hLast
  · rcases List.mem_append.mp hFirst with hDump | hReply
    · obtain ⟨connection, counters, rfl⟩ := hBefore call hDump
      trivial
    · rw [List.mem_singleton.mp hReply]
      trivial
  · rw [hAfter call hLast]
    trivial

theorem keeps_writeCounted (data : Bytes) : Keeps conn (writeCounted env conn data) where
  isAlloc := rfl
  fd := rfl
  calls call hCall := by
    rw [List.mem_singleton.mp hCall]
    trivial

/-- From the segments, the second write is made only if there is a second
segment. -/
theorem vtsServerWriteBack_segments (rxBytes : Nat) :
    vtsServerWriteBack true env conn rxBytes =
      (let first := writeCounted env conn conn.ds.first
      if conn.ds.second.length ≠ 0 then
        let second := writeCounted env first.1 conn.ds.second
        (second.1, first.2 ++ second.2)
      else first) := rfl

theorem keeps_vtsServerWriteBack (rxBytes : Nat) :
    Keeps conn (vtsServerWriteBack useDs env conn rxBytes) := by
  cases useDs with
  | false => exact keeps_writeCounted env conn _
  | true =>
      have hFirst := keeps_writeCounted env conn conn.ds.first
      rw [vtsServerWriteBack_segments]
      dsimp only
      split_ifs
      · exact hFirst.then (keeps_writeCounted env _ conn.ds.second)
      · exact hFirst

theorem keeps_vtsServerEcho (rxBytes : Nat) :
    Keeps conn (vtsServerEcho useDs env conn rxBytes) := by
  unfold vtsServerEcho
  cases useDs <;> exact ⟨rfl, rfl, (keeps_writeCounted env _ _).calls⟩

/-- The release of the segments of a message, in zero-copy mode. -/
def freeCalls (useDs : Bool) (fd : Int32) : List Call :=
  if useDs then [.freeSegments fd] else []

/-- A chunk is released once, between the calls that come before and after. -/
theorem vtsServerRx_calls (rxBytes : Nat) :
    ∃ before after, Keeps conn ((vtsServerRx useDs env conn rxBytes).1, before ++ after) ∧
      (vtsServerRx useDs env conn rxBytes).2 = before ++ freeCalls useDs conn.fd ++ after := by
  have hWritten : Keeps conn (if conn.cfg.test = .bi then vtsServerWriteBack useDs env conn rxBytes
      else (conn, [])) := by
    split_ifs
    · exact keeps_vtsServerWriteBack useDs env conn rxBytes
    · exact ⟨rfl, rfl, fun _ h => absurd h List.not_mem_nil⟩
  unfold vtsServerRx
  generalize (if conn.cfg.test = .bi then vtsServerWriteBack useDs env conn rxBytes
    else (conn, [])) = result at hWritten
  obtain ⟨tester, written⟩ := result
  have hFd : tester.fd = conn.fd := hWritten.fd
  have hFreed : (if useDs then [Call.freeSegments tester.fd] else []) =
      freeCalls useDs conn.fd := by
    rw [hFd]
    rfl
  dsimp only
  rw [hFreed]
  by_cases hStop : tester.stats.rxBytes ≥ tester.cfg.totalBytes
  · rw [if_pos hStop]
    refine ⟨written, [.stopTime], ⟨hWritten.isAlloc, hFd, fun call hCall => ?_⟩, rfl⟩
    rcases List.mem_append.mp hCall with h | h
    · exact hWritten.calls call h
    · rw [List.mem_singleton.mp h]
      trivial
  · rw [if_neg hStop]
    refine ⟨written, [], ?_, by rw [List.append_nil]⟩
    rw [List.append_nil]
    exact hWritten

/-- A config message is answered on a connection that stays, unless it is an
EXIT of the right size. -/
theorem vtsHandleCfg_cases (nfds : Int) (rxCfg : VclTestCfg) (rxBytes : Nat) :
    (∃ result, vtsHandleCfg V env pool index nfds conn rxCfg rxBytes =
        (result.1, result.2, nfds) ∧ Keeps conn result) ∨
      rxBytes = V.cfgSize ∧ rxCfg.test = .exit ∧
        vtsHandleCfg V env pool index nfds conn rxCfg rxBytes =
          (connPoolFree { conn with stats := { conn.stats with stop := env.now } },
            [.stopTime, .close conn.fd], nfds - 1) := by
  unfold vtsHandleCfg
  by_cases hSize : rxBytes ≠ V.cfgSize
  · rw [if_pos hSize]
    exact Or.inl ⟨(_, _), rfl, rfl, rfl, fun call hCall => by
      rw [List.mem_singleton.mp hCall]
      trivial⟩
  · rw [if_neg hSize]
    cases hTest : rxCfg.test with
    | none => exact Or.inl ⟨_, rfl, keeps_syncConfigAndReply V env conn rxCfg⟩
    | echo => exact Or.inl ⟨_, rfl, keeps_syncConfigAndReply V env conn rxCfg⟩
    | uni => exact Or.inl ⟨_, rfl, keeps_vtsServerStartStop V env pool index conn rxCfg⟩
    | bi => exact Or.inl ⟨_, rfl, keeps_vtsServerStartStop V env pool index conn rxCfg⟩
    | exit => exact Or.inr ⟨not_not.mp hSize, rfl, rfl⟩
    | unknown code =>
        exact Or.inl ⟨(conn, []), rfl, rfl, rfl, fun _ h => absurd h List.not_mem_nil⟩

/-- The read that delivers a message. -/
def readCall (useDs : Bool) (fd : Int32) (count : Nat) : Call :=
  if useDs then .readSegments fd count else .read fd count

/-- A route on which the segments of the message are released. -/
def Route.Releases : Route → Prop
  | .handleCfg | .serverRx => True
  | .serverEcho | .notDrained => False

instance (route : Route) : Decidable route.Releases :=
  match route with
  | .handleCfg | .serverRx => .isTrue trivial
  | .serverEcho | .notDrained => .isFalse id

variable {V useDs conn} in
/-- A config is one where it is expected and the magic is there. -/
theorem route_eq_handleCfg : route V useDs conn = .handleCfg ↔
    vtsConnExpectConfig conn = true ∧ hasMagic V (vtsConnReadConfig V useDs conn) = true := by
  unfold route
  split_ifs with hConfig hTest hAscii
  all_goals simpa using hConfig

variable {V useDs conn} in
theorem route_eq_serverRx (h : route V useDs conn ≠ .handleCfg) :
    route V useDs conn = .serverRx ↔ conn.cfg.test = .uni ∨ conn.cfg.test = .bi := by
  unfold route at h ⊢
  split_ifs at h ⊢ with hConfig hTest hAscii
  · exact absurd rfl h
  all_goals simpa using hTest

theorem releases_iff (route : Route) :
    route.Releases ↔ route = .handleCfg ∨ route = .serverRx := by
  cases route <;> simp [Route.Releases]

@[simp] theorem vtsHandleMessage_route (nfds : Int) (ds : Segments) :
    (vtsHandleMessage V useDs env pool index nfds conn ds).route =
      route V useDs (vtsConnRead useDs env conn ds) := by
  unfold vtsHandleMessage
  dsimp only
  cases route V useDs (vtsConnRead useDs env conn ds) <;> rfl

/-- A config is released first and handled then. -/
theorem vtsHandleMessage_handleCfg (nfds : Int) (ds : Segments)
    (hRoute : route V useDs (vtsConnRead useDs env conn ds) = .handleCfg) :
    vtsHandleMessage V useDs env pool index nfds conn ds =
      (let config := vtsConnReadConfig V useDs (vtsConnRead useDs env conn ds)
      let result := vtsHandleCfg V env pool index nfds config
        (V.decode (config.buf.bytes.take V.cfgSize)) ds.data.length
      ⟨.handleCfg, result.1, readCall useDs conn.fd ds.data.length :: freeCalls useDs conn.fd ++
        result.2.1, result.2.2⟩) := by
  obtain ⟨hExpect, -⟩ := route_eq_handleCfg.mp hRoute
  unfold vtsHandleMessage
  dsimp only
  rw [hRoute, if_pos hExpect]
  cases useDs <;> rfl

/-- A chunk is handled as data of a test. -/
theorem vtsHandleMessage_serverRx (nfds : Int) (ds : Segments)
    (hRoute : route V useDs (vtsConnRead useDs env conn ds) = .serverRx) :
    vtsHandleMessage V useDs env pool index nfds conn ds =
      (let received := vtsConnRead useDs env conn ds
      let result := vtsServerRx useDs env (if vtsConnExpectConfig received then
        vtsConnReadConfig V useDs received else received) ds.data.length
      ⟨.serverRx, result.1, readCall useDs conn.fd ds.data.length :: result.2, nfds⟩) := by
  unfold vtsHandleMessage
  dsimp only
  rw [hRoute]
  cases useDs <;> rfl

/-- The calls of one message: the read, the release of its segments on two of
the four routes, local calls around it, and at the end of an EXIT the close
that goes with the slot. -/
inductive MessageCalls (useDs : Bool) (conn : Conn) (nfds : Int) (count : Nat) (h : Handled) :
    Prop where
  | kept (before after : List Call) (hKeeps : Keeps conn (h.conn, before ++ after))
      (hNfds : h.nfds = nfds)
      (hCalls : h.calls = readCall useDs conn.fd count ::
        (before ++ (if h.route.Releases then freeCalls useDs conn.fd else []) ++ after))
  | closed (hRoute : h.route = .handleCfg) (hAlloc : h.conn.isAlloc = false)
      (hNfds : h.nfds = nfds - 1)
      (hCalls : h.calls = readCall useDs conn.fd count ::
        (freeCalls useDs conn.fd ++ [.stopTime, .close conn.fd]))

/-- What any message leads to. -/
theorem messageCalls (nfds : Int) (ds : Segments) :
    MessageCalls useDs conn nfds ds.data.length
      (vtsHandleMessage V useDs env pool index nfds conn ds) := by
  unfold vtsHandleMessage
  have hRead : Keeps conn (vtsConnRead useDs env conn ds, []) := by
    unfold vtsConnRead
    cases useDs <;> exact ⟨rfl, rfl, fun _ h => absurd h List.not_mem_nil⟩
  generalize hMessage : vtsConnRead useDs env conn ds = received at hRead
  have hConfig : Keeps conn (if vtsConnExpectConfig received then
      vtsConnReadConfig V useDs received else received, []) := by
    unfold vtsConnReadConfig
    split_ifs
    all_goals exact ⟨hRead.isAlloc, hRead.fd, hRead.calls⟩
  dsimp only
  rw [hRead.fd]
  generalize (if vtsConnExpectConfig received then vtsConnReadConfig V useDs received
    else received) = looked at hConfig
  have hFd : looked.fd = conn.fd := hConfig.fd
  cases route V useDs received with
  | handleCfg =>
      dsimp only
      rw [hFd]
      rcases vtsHandleCfg_cases V env pool index looked nfds
        (V.decode (looked.buf.bytes.take V.cfgSize)) ds.data.length with ⟨result, hEq, hKeeps⟩ | ⟨-, -, hEq⟩
      · rw [hEq]
        exact .kept [] result.2 (hConfig.then hKeeps) rfl rfl
      · rw [hEq, hFd]
        exact .closed rfl rfl rfl rfl
  | serverRx =>
      obtain ⟨before, after, hKeeps, hCalls⟩ :=
        vtsServerRx_calls useDs env looked ds.data.length
      rw [hFd] at hCalls
      exact .kept before after (hConfig.then hKeeps) rfl (by rw [hCalls]; rfl)
  | serverEcho =>
      have hKeeps := keeps_vtsServerEcho useDs env looked ds.data.length
      exact .kept [] (vtsServerEcho useDs env looked ds.data.length).2 (hConfig.then hKeeps) rfl rfl
  | notDrained =>
      exact .kept [] [] hConfig rfl rfl

end DpdkPerf.VclTestServer
