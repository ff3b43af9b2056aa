import DpdkPerf.VclTestServer.Interleaving
import DpdkPerf.VclTestServer.Layout

/-! The size of a connection's buffer, which is recorded beside the buffer and
twice in the config: what the messages of a connection do to the three. -/
namespace DpdkPerf.VclTestServer

/-- The sizes in the config are that of the buffer. -/
structure Conn.InStep (conn : Conn) : Prop where
  rxbufSize : conn.cfg.rxbufSize = conn.bufSize.toUInt64
  txbufSize : conn.cfg.txbufSize = conn.bufSize.toUInt64

section Message

variable {V : VclTestApi} {useDs : Bool} {env : Env} {pool : List Conn} {index rxBytes : Nat}
  {nfds : Int} {conn conn' : Conn} {ds : Segments} {rxCfg : VclTestCfg}

theorem inStep_freshConn : (freshConn V).InStep := ⟨rfl, rfl⟩

/-- The counters and the contents of the buffer do not matter. -/
theorem Conn.InStep.of_view (h : conn.InStep) (hCfg : conn'.cfg = conn.cfg)
    (hSize : conn'.bufSize = conn.bufSize) : conn'.InStep := by
  constructor
  · rw [hCfg, hSize, h.rxbufSize]
  · rw [hCfg, hSize, h.txbufSize]

theorem inStep_syncConfigAndReply (V : VclTestApi) (env : Env) (conn : Conn) (rxCfg : VclTestCfg) :
    (syncConfigAndReply V env conn rxCfg).1.InStep := ⟨rfl, rfl⟩

theorem inStep_vtsServerStartStop : (vtsServerStartStop V env pool index conn rxCfg).1.InStep := by
  obtain ⟨buf, stats, before, after, hEq, -⟩ :=
    vtsServerStartStop_eq V env pool index conn rxCfg
  rw [hEq]
  exact ⟨rfl, rfl⟩

/-- A config of the right size leaves the sizes in step, whatever its test. -/
theorem Conn.InStep.vtsHandleCfg (h : conn.InStep) (hSize : rxBytes = V.cfgSize) :
    (vtsHandleCfg V env pool index nfds conn rxCfg rxBytes).1.InStep := by
  unfold VclTestServer.vtsHandleCfg
  rw [if_neg (not_not.mpr hSize)]
  cases rxCfg.test with
  | none => exact inStep_syncConfigAndReply V env conn rxCfg
  | echo => exact inStep_syncConfigAndReply V env conn rxCfg
  | uni => exact inStep_vtsServerStartStop
  | bi => exact inStep_vtsServerStartStop
  | exit => exact h.of_view rfl rfl
  | unknown code => exact h

/-- A config of a wrong size is answered with the live config, in which two
fields are cleared. -/
theorem cfg_vtsHandleCfg_malformed (hSize : rxBytes ≠ V.cfgSize) :
    (vtsHandleCfg V env pool index nfds conn rxCfg rxBytes).1 =
      { conn with cfg := { conn.cfg with rxbufSize := 0, numWrites := 0 } } := by
  unfold vtsHandleCfg
  rw [if_pos hSize]

theorem cfg_cleared_eq_iff (cfg : VclTestCfg) :
    { cfg with rxbufSize := 0, numWrites := 0 } = cfg ↔ cfg.rxbufSize = 0 ∧ cfg.numWrites = 0 := by
  constructor
  · intro hEq
    rw [← hEq]
    exact ⟨rfl, rfl⟩
  · rintro ⟨hSize, hWrites⟩
    cases cfg
    cases hSize
    cases hWrites
    rfl

/-- The connection on which a config is handled has what it had before the
message, up to the counters and the contents of the buffer. -/
theorem looked_sizes (V : VclTestApi) (useDs : Bool) (env : Env) (conn : Conn) (ds : Segments) :
    let looked := vtsConnReadConfig V useDs (vtsConnRead useDs env conn ds)
    looked.cfg = conn.cfg ∧ looked.bufSize = conn.bufSize := by
  cases useDs <;> exact ⟨rfl, rfl⟩

end Message

section Runs

variable {V : VclTestApi} {useDs : Bool} {s : Server} {input : Input}

theorem forall_mem_set {α : Type*} {l : List α} {i : Nat} {a : α} {P : α → Prop}
    (h : ∀ b ∈ l, P b) (ha : P a) : ∀ b ∈ l.set i a, P b := by
  intro b hMem
  rcases List.mem_or_eq_of_mem_set hMem with hOld | rfl
  · exact h b hOld
  · exact ha

/-- What every record of the pool has, if what happens to the other fields
does not matter to it, stays so when the messages that are read keep it. -/
theorem forall_connPool_next {P : Conn → Prop} (hFresh : P (freshConn V))
    (hFrame : ∀ conn conn', conn'.cfg = conn.cfg → conn'.bufSize = conn.bufSize → P conn → P conn')
    (hRead : ∀ i rx conn, s.clientRead i input = some rx → s.worker.connPool[i]? = some conn →
      P conn → P (vtsHandleMessage V useDs rx.env s.worker.connPool i s.worker.nfds conn rx.ds).conn)
    (h : ∀ conn ∈ s.worker.connPool, P conn) :
    ∀ conn ∈ ((server V useDs).next s input).worker.connPool, P conn := by
  rcases connPool_step V useDs s input with ⟨env, result, k, rfl, hPc, hEq⟩ | ⟨nc, hEq⟩ | hEq
  · rw [hEq]
    unfold vtsWorkerRead
    cases hSlot : s.worker.connPool[k]? with
    | none => exact h
    | some conn =>
        have hOld := h conn (List.mem_of_getElem? hSlot)
        cases result with
        | error connReset => exact forall_mem_set h (hFrame conn _ rfl rfl hOld)
        | message ds => exact forall_mem_set h (hRead k ⟨env, ds⟩ conn (if_pos hPc) hSlot hOld)
  · rw [hEq]
    rcases vtsNewClient_cases V s.worker nc with ⟨-, hNew⟩ | ⟨-, n, i, conn, hSlot, -, hNew⟩
    · rw [hNew]
      exact h
    · have hGrown : ∀ conn ∈ s.worker.connPool ++ List.replicate n (freshConn V), P conn := by
        intro conn hMem
        rcases List.mem_append.mp hMem with hOld | hAdded
        · exact h conn hOld
        · rw [List.eq_of_mem_replicate hAdded]
          exact hFresh
      have hTaken := hGrown conn (List.mem_of_getElem? hSlot)
      rw [hNew]
      split_ifs
      all_goals exact forall_mem_set hGrown (hFrame conn _ rfl rfl hTaken)
  · rw [hEq]
    exact h

/-- A message leaves the connection with its sizes in step, if it is still
there, and does not change its config if it has not the size of one. -/
def Server.StaysInStep (V : VclTestApi) (useDs : Bool) (s : Server) (input : Input) : Prop :=
  ∀ i rx conn conn', s.clientRead i input = some rx → s.worker.connPool[i]? = some conn →
    ((server V useDs).next s input).worker.connPool[i]? = some conn' →
    (conn'.isAlloc = true → conn'.InStep) ∧ (rx.msg.length ≠ V.cfgSize → conn'.cfg = conn.cfg)

/-- A message that is taken for a config has its size, unless there is nothing
to clear. -/
def Server.WellSized (V : VclTestApi) (useDs : Bool) (s : Server) (input : Input) : Prop :=
  ∀ i rx conn, s.clientRead i input = some rx → s.worker.connPool[i]? = some conn →
    route V useDs (vtsConnRead useDs rx.env conn rx.ds) = .handleCfg →
    rx.msg.length = V.cfgSize ∨ conn.cfg.rxbufSize = 0 ∧ conn.cfg.numWrites = 0

/-- A message changes the record that it was read into as its handler says. -/
theorem slot_next {i : Nat} {rx : Rx} {conn : Conn} (hRead : s.clientRead i input = some rx)
    (hSlot : s.worker.connPool[i]? = some conn) :
    ((server V useDs).next s input).worker.connPool[i]? =
      some (vtsHandleMessage V useDs rx.env s.worker.connPool i s.worker.nfds conn rx.ds).conn := by
  rw [next_of_clientRead hRead]
  exact connection_slot rx hSlot

/-- What a message does to the config and the buffer size. -/
theorem message_sizes (V : VclTestApi) (useDs : Bool) (env : Env) (pool : List Conn) (i : Nat)
    (nfds : Int) (conn : Conn) (ds : Segments) :
    let handled := (vtsHandleMessage V useDs env pool i nfds conn ds).conn
    (route V useDs (vtsConnRead useDs env conn ds) = .handleCfg →
      (ds.data.length = V.cfgSize → conn.InStep → handled.InStep) ∧
      (ds.data.length ≠ V.cfgSize →
        handled.cfg = { conn.cfg with rxbufSize := 0, numWrites := 0 } ∧
          handled.bufSize = conn.bufSize)) ∧
    (route V useDs (vtsConnRead useDs env conn ds) ≠ .handleCfg →
      handled.cfg = conn.cfg ∧ handled.bufSize = conn.bufSize) := by
  intro handled
  constructor
  · intro hRoute
    obtain ⟨hCfg, hSize⟩ := looked_sizes V useDs env conn ds
    have hHandled := vtsHandleMessage_handleCfg V useDs env pool i conn nfds ds hRoute
    unfold handled
    rw [hHandled]
    dsimp only
    constructor
    · exact fun hLength h => (h.of_view hCfg hSize).vtsHandleCfg hLength
    · intro hLength
      rw [cfg_vtsHandleCfg_malformed hLength]
      exact ⟨by rw [← hCfg], hSize⟩
  · intro hRoute
    have hView := (view_of_not_handleCfg V useDs env pool i nfds conn ds hRoute).1
    exact ⟨congrArg View.cfg hView, congrArg View.bufSize hView⟩

/-- A message keeps the sizes in step, and one that is not as long as a config
leaves the config alone. -/
theorem Conn.InStep.message {i : Nat} {rx : Rx} {conn : Conn} (h : conn.InStep)
    (hWellSized : s.WellSized V useDs input) (hRead : s.clientRead i input = some rx)
    (hSlot : s.worker.connPool[i]? = some conn) :
    let handled := vtsHandleMessage V useDs rx.env s.worker.connPool i s.worker.nfds conn rx.ds
    handled.conn.InStep ∧ (rx.msg.length ≠ V.cfgSize → handled.conn.cfg = conn.cfg) := by
  intro handled
  obtain ⟨hConfig, hOther⟩ := message_sizes V useDs rx.env s.worker.connPool i s.worker.nfds conn
    rx.ds
  by_cases hRoute : route V useDs (vtsConnRead useDs rx.env conn rx.ds) = .handleCfg
  · obtain ⟨hRight, hWrong⟩ := hConfig hRoute
    by_cases hLength : rx.msg.length = V.cfgSize
    · exact ⟨hRight hLength h, fun hNot => absurd hLength hNot⟩
    · obtain ⟨hCfg, hSize⟩ := hWrong hLength
      have hNothing := (hWellSized i rx conn hRead hSlot hRoute).resolve_left hLength
      have hSame : handled.conn.cfg = conn.cfg :=
        hCfg.trans ((cfg_cleared_eq_iff conn.cfg).mpr hNothing)
      exact ⟨h.of_view hSame hSize, fun _ => hSame⟩
  · obtain ⟨hSame, hSize⟩ := hOther hRoute
    exact ⟨h.of_view hSame hSize, fun _ => hSame⟩

/-- A config message of a wrong size shows, unless there is nothing to clear. -/
theorem Server.StaysInStep.wellSized (h : s.StaysInStep V useDs input) :
    s.WellSized V useDs input := by
  intro i rx conn hRead hSlot hRoute
  by_cases hLength : rx.msg.length = V.cfgSize
  · exact Or.inl hLength
  · right
    obtain ⟨-, hKept⟩ := h i rx conn _ hRead hSlot (slot_next hRead hSlot)
    obtain ⟨hConfig, -⟩ := message_sizes V useDs rx.env s.worker.connPool i s.worker.nfds conn rx.ds
    rw [← cfg_cleared_eq_iff]
    exact ((hConfig hRoute).2 hLength).1.symm.trans (hKept hLength)

/-- In every run of the worker the messages leave the sizes in step, and the
configs alone when they are none, exactly if none of them is taken for a
config whose size it has not. -/
theorem staysInStep_iff (V : VclTestApi) (useDs : Bool) (poolSize : Nat) (inputs : List Input) :
    (server V useDs).Meets (Server.StaysInStep V useDs) (.initial V poolSize) inputs ↔
      (server V useDs).Meets (Server.WellSized V useDs) (.initial V poolSize) inputs := by
  constructor
  · exact fun h => h.mono fun _ _ hStep => hStep.wellSized
  · intro h
    refine h.meets_of_invariant (I := fun s => ∀ conn ∈ s.worker.connPool, conn.InStep) ?_ ?_ ?_
    · intro s input hWellSized hAll
      refine forall_connPool_next inStep_freshConn
        (fun conn conn' hCfg hSize hConn => hConn.of_view hCfg hSize) ?_ hAll
      exact fun i rx conn hRead hSlot hConn => (hConn.message hWellSized hRead hSlot).1
    · intro s input hWellSized hAll i rx conn conn' hRead hSlot hNext
      have hConn := hAll conn (List.mem_of_getElem? hSlot)
      obtain ⟨hStep, hKept⟩ := hConn.message hWellSized hRead hSlot
      obtain rfl := Option.some.inj (hNext.symm.trans (slot_next hRead hSlot))
      exact ⟨fun _ => hStep, hKept⟩
    · intro conn hMem
      rw [List.eq_of_mem_replicate hMem]
      exact inStep_freshConn

/-- The first message is the magic word with six bytes more, which is too
short for a config: the size of the receive buffer is cleared. -/
theorem not_staysInStep :
    let client : Input := .event ⟨.listener, false, false, true⟩ ⟨true, 5, 0, {}, []⟩
    let readable : Input := .event ⟨.client 0, false, false, true⟩ ⟨true, 7, 0, {}, []⟩
    let malformed : Bytes := packedApi.magicBytes ++ List.replicate 6 0
    let inputs : List Input := [client, readable, .read {} (.message ⟨malformed, []⟩)]
    (server packedApi false).Admits (.initial packedApi 1) inputs ∧
      ¬ (server packedApi false).Meets (Server.StaysInStep packedApi false) (.initial packedApi 1)
        inputs := by
  intro client readable malformed inputs
  let s := (server packedApi false).run (.initial packedApi 1) [client, readable]
  let rx : Rx := ⟨{}, ⟨malformed, []⟩⟩
  have hRun : (server packedApi false).Admits (.initial packedApi 1) inputs ∧
      s.clientRead 0 (.read rx.env (.message rx.ds)) = some rx ∧
      ∃ conn ∈ s.worker.connPool[0]?,
        route packedApi false (vtsConnRead false rx.env conn rx.ds) = .handleCfg ∧
          conn.cfg.numWrites ≠ 0 := by
    decide +kernel
  obtain ⟨hAdmits, hRead, conn, hSlot, hRoute, hWrites⟩ := hRun
  refine ⟨hAdmits, fun hMeets => ?_⟩
  have hStep : s.StaysInStep packedApi false (.read rx.env (.message rx.ds)) := by
    simp only [inputs, Machine.meets_cons] at hMeets
    exact hMeets.2.2.1
  rcases hStep.wellSized 0 rx conn hRead hSlot hRoute with hLength | ⟨-, hNone⟩
  · exact absurd hLength (by decide)
  · exact hWrites hNone

end Runs

end DpdkPerf.VclTestServer
