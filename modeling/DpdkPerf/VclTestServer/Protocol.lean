import DpdkPerf.VclTestServer.Effects

/-! The protocol that the server speaks on one connection when every message
is read whole: what it remembers of the connection and how it answers,
without buffers, segments or counters. Both ways of reading refine it. -/
namespace DpdkPerf.VclTestServer

/-- What the treatment of later messages depends on. -/
structure View where
  isAlloc : Bool
  fd : Int32
  bufSize : UInt32
  cfg : VclTestCfg
  rxBytes : UInt64
  deriving DecidableEq

def Conn.view (conn : Conn) : View :=
  ⟨conn.isAlloc, conn.fd, conn.bufSize, conn.cfg, conn.stats.rxBytes⟩

namespace View

variable (V : VclTestApi)

def count (v : View) (msg : Bytes) : View :=
  { v with rxBytes := v.rxBytes + UInt64.ofNat msg.length }

def expectsConfig (v : View) : Bool :=
  v.cfg.test = .echo || (v.rxBytes < 128 || v.rxBytes > v.cfg.totalBytes)

def route (v : View) (msg : Bytes) : Route :=
  if v.expectsConfig && msg.take 4 = V.magicBytes then .handleCfg
  else if v.cfg.test = .uni || v.cfg.test = .bi then .serverRx
  else if msg.headD 0 < 128 then .serverEcho
  else .notDrained

/-- The config is taken over, with the low 32 bits of its buffer size. -/
def applyCfg (v : View) (cfg : VclTestCfg) : View :=
  let size := cfg.rxbufSize.toUInt32
  { v with
    cfg := { cfg with rxbufSize := size.toUInt64, txbufSize := size.toUInt64 }
    bufSize := size }

/-- The connection after a config message, and what is sent back. -/
def handleCfg (v : View) (msg : Bytes) : View × List Bytes :=
  if msg.length ≠ V.cfgSize then
    let v := { v with cfg := { v.cfg with rxbufSize := 0, numWrites := 0 } }
    (v, [V.encode v.cfg])
  else
    let rxCfg := V.decode msg
    match rxCfg.test with
    | .none | .echo =>
        let v := v.applyCfg rxCfg
        (v, [V.encode v.cfg])
    | .uni | .bi =>
        let v := { v.applyCfg (startedCfg v.fd rxCfg) with rxBytes := 0 }
        (v, [V.encode v.cfg])
    | .exit => ({ v with isAlloc := false, fd := 0 }, [])
    | .unknown _ => (v, [])

/-- The text of a message: what precedes its first NUL, without its last byte
if it fills the buffer, with a NUL at the end. -/
def echoText (v : View) (msg : Bytes) : Bytes :=
  (msg.take (v.bufSize.toNat - 1)).takeWhile (· ≠ 0) ++ [0]

/-- What a message that has been counted is answered with. -/
def reply (v : View) (msg : Bytes) : List Bytes :=
  match v.route V msg with
  | .handleCfg => (v.handleCfg V msg).2
  | .serverRx => if v.cfg.test = .bi then [msg] else []
  | .serverEcho => [v.echoText msg]
  | .notDrained => []

/-- The connection after a message that has been counted. -/
def after (v : View) (msg : Bytes) : View :=
  match v.route V msg with
  | .handleCfg => (v.handleCfg V msg).1
  | _ => v

end View

/-- What one message leads to. -/
structure Reaction where
  route : Route
  sent : List Bytes
  deriving DecidableEq

/-- A message is at least as long as the magic word, and fits in the buffer. -/
def View.Receives (v : View) (msg : Bytes) : Prop :=
  v.isAlloc = true ∧ 4 ≤ msg.length ∧ msg.length ≤ v.bufSize.toNat

instance (v : View) (msg : Bytes) : Decidable (v.Receives msg) :=
  inferInstanceAs (Decidable (_ ∧ _))

/-- The protocol as a machine over the messages of a connection. -/
def protocol (V : VclTestApi) : Machine View Bytes Reaction where
  enabled := View.Receives
  next v msg := (v.count msg).after V msg
  output v msg := ⟨(v.count msg).route V msg, (v.count msg).reply V msg⟩

section Refinement

variable (V : VclTestApi) (useDs : Bool) (env : Env) (pool : List Conn) (index : Nat)
  (nfds : Int) (conn : Conn) (ds : Segments)

/-- A config has room for its magic. -/
theorem four_le_cfgSize : 4 ≤ V.cfgSize := by
  have hTake := V.take_encode { V.cfgInit with magic := V.ctrlMagic } rfl
  have hLength := congrArg List.length hTake
  rw [List.length_take, V.encode_length, V.magicBytes_length] at hLength
  omega

/-- The bytes that go out with a list of calls. -/
def sentData (calls : List Call) : List Bytes :=
  calls.filterMap fun
    | .write _ data => some data
    | _ => none

theorem sentData_append (first second : List Call) :
    sentData (first ++ second) = sentData first ++ sentData second :=
  List.filterMap_append

/-- Calls without a write send nothing. -/
theorem sentData_eq_nil {calls : List Call} (h : ∀ call ∈ calls, ∀ fd data, call ≠ .write fd data) :
    sentData calls = [] := by
  rw [sentData, List.filterMap_eq_nil_iff]
  intro call hCall
  cases call with
  | write fd data => exact absurd rfl (h _ hCall fd data)
  | _ => rfl

/-- The front of the buffer that is taken for a config is the front of the
message, in both modes. -/
theorem take_readConfig {n : Nat} (hn : n ≤ ds.data.length) (hSize : n ≤ V.cfgSize)
    (hFits : ds.data.length ≤ conn.bufSize.toNat) :
    (vtsConnReadConfig V useDs (vtsConnRead useDs env conn ds)).buf.bytes.take n =
      ds.data.take n := by
  cases useDs with
  | false => exact conn.buf.take_write ds.data hn hFits
  | true =>
      have hPrefix : n ≤ (ds.data.take V.cfgSize).length := by
        rw [List.length_take]
        omega
      have hPrefixFits : (ds.data.take V.cfgSize).length ≤ conn.buf.size.toNat :=
        (List.length_take_le' _ _).trans hFits
      calc (conn.buf.write (ds.data.take V.cfgSize)).bytes.take n
          = (ds.data.take V.cfgSize).take n := conn.buf.take_write _ hPrefix hPrefixFits
        _ = ds.data.take n := by rw [List.take_take, Nat.min_eq_left hSize]

theorem expectConfig_read :
    vtsConnExpectConfig (vtsConnRead useDs env conn ds) =
      (conn.view.count ds.data).expectsConfig := by
  cases useDs <;> rfl

theorem cfg_read : (vtsConnRead useDs env conn ds).cfg = (conn.view.count ds.data).cfg := by
  cases useDs <;> rfl

/-- The magic is looked for in the first bytes of the message. -/
theorem hasMagic_readConfig (hLong : 4 ≤ ds.data.length)
    (hFits : ds.data.length ≤ conn.bufSize.toNat) :
    hasMagic V (vtsConnReadConfig V useDs (vtsConnRead useDs env conn ds)) =
      decide (ds.data.take 4 = V.magicBytes) := by
  rw [hasMagic, take_readConfig V useDs env conn ds hLong (four_le_cfgSize V) hFits]

/-- In copy mode the first byte of the buffer is that of the message. -/
theorem hasAscii_read (hSome : 0 < ds.data.length)
    (hFits : ds.data.length ≤ conn.bufSize.toNat) :
    vtsConnHasAscii false (vtsConnRead false env conn ds) = decide (ds.data.headD 0 < 128) := by
  have hTake := conn.buf.take_write (n := 1) ds.data hSome hFits
  have hHead (l : Bytes) : l.headD 0 = (l.take 1).headD 0 := by cases l <;> rfl
  have hBuffer : (vtsConnRead false env conn ds).buf.bytes.headD 0 = ds.data.headD 0 := by
    calc (conn.buf.write ds.data).bytes.headD 0
        = ((conn.buf.write ds.data).bytes.take 1).headD 0 := hHead _
      _ = (ds.data.take 1).headD 0 := by rw [hTake]
      _ = ds.data.headD 0 := (hHead _).symm
  rw [vtsConnHasAscii, if_neg Bool.false_ne_true, hBuffer]

/-- A message read whole takes the route the protocol gives it: always in
copy mode, and in zero-copy mode if that is one of the two on which its
segments are released. -/
theorem route_eq_view (hLong : 4 ≤ ds.data.length) (hFits : ds.data.length ≤ conn.bufSize.toNat)
    (hMode : useDs = false ∨ ((conn.view.count ds.data).route V ds.data).Releases) :
    route V useDs (vtsConnRead useDs env conn ds) = (conn.view.count ds.data).route V ds.data := by
  unfold route View.route at *
  rw [expectConfig_read, hasMagic_readConfig V useDs env conn ds hLong hFits, cfg_read]
  by_cases hConfig : ((conn.view.count ds.data).expectsConfig &&
      decide (ds.data.take 4 = V.magicBytes)) = true
  · rw [if_pos hConfig, if_pos hConfig]
  · rw [if_neg hConfig] at hMode ⊢
    rw [if_neg hConfig]
    by_cases hTest : (decide ((conn.view.count ds.data).cfg.test = .uni) ||
        decide ((conn.view.count ds.data).cfg.test = .bi)) = true
    · rw [if_pos hTest, if_pos hTest]
    · rw [if_neg hTest] at hMode ⊢
      rw [if_neg hTest]
      rcases hMode with rfl | hReleases
      · have hSame : (if (conn.view.count ds.data).expectsConfig then
            vtsConnReadConfig V false (vtsConnRead false env conn ds)
            else vtsConnRead false env conn ds) = vtsConnRead false env conn ds := by
          rw [vtsConnReadConfig, if_neg Bool.false_ne_true, ite_self]
        rw [hSame, hasAscii_read env conn ds (by omega) hFits]
        simp only [decide_eq_true_eq]
      · split_ifs at hReleases
        all_goals exact absurd hReleases not_false

/-- A START or a STOP shows in the view as the protocol says. -/
theorem view_vtsServerStartStop (rxCfg : VclTestCfg) :
    let result := vtsServerStartStop V env pool index conn rxCfg
    let after := { conn.view.applyCfg (startedCfg conn.fd rxCfg) with rxBytes := 0 }
    result.1.view = after ∧ sentData result.2 = [env.written (V.encode after.cfg)] := by
  obtain ⟨buf, stats, before, rest, hEq, hBytes, -, hBefore, hRest⟩ :=
    vtsServerStartStop_eq V env pool index conn rxCfg
  intro result after
  have hResult : result = _ := hEq
  have hDumps : sentData before = [] := by
    refine sentData_eq_nil fun call hCall fd data hWrite => ?_
    obtain ⟨connection, counters, hDump⟩ := hBefore call hCall
    rw [hDump] at hWrite
    cases hWrite
  have hTimes : sentData rest = [] := by
    refine sentData_eq_nil fun call hCall fd data hWrite => ?_
    rw [hRest call hCall] at hWrite
    cases hWrite
  rw [hResult]
  constructor
  · change View.mk _ _ _ _ stats.rxBytes = after
    rw [hBytes]
    rfl
  · rw [sentData_append, sentData_append, hDumps, hTimes, List.append_nil, List.nil_append]
    rfl

/-- What a config message does to the connection, its reply and the count,
when the server reads the config that the message holds. -/
theorem view_vtsHandleCfg (msg : Bytes) (rxCfg : VclTestCfg) (hAlloc : conn.isAlloc = true)
    (hDecode : msg.length = V.cfgSize → rxCfg = V.decode msg) :
    let result := vtsHandleCfg V env pool index nfds conn rxCfg msg.length
    let after := conn.view.handleCfg V msg
    result.1.view = after.1 ∧
      sentData result.2.1 = after.2.map env.written ∧
      result.2.2 = (if after.1.isAlloc then nfds else nfds - 1) := by
  unfold vtsHandleCfg View.handleCfg
  by_cases hSize : msg.length ≠ V.cfgSize
  · rw [if_pos hSize, if_pos hSize]
    exact ⟨rfl, rfl, (if_pos hAlloc).symm⟩
  · obtain rfl := hDecode (not_not.mp hSize)
    obtain ⟨hView, hSent⟩ := view_vtsServerStartStop V env pool index conn (V.decode msg)
    rw [if_neg hSize, if_neg hSize]
    cases hTest : (V.decode msg).test with
    | none =>
        simp only [hTest]
        exact ⟨rfl, rfl, (if_pos hAlloc).symm⟩
    | echo =>
        simp only [hTest]
        exact ⟨rfl, rfl, (if_pos hAlloc).symm⟩
    | uni =>
        simp only [hTest]
        exact ⟨hView, hSent, (if_pos hAlloc).symm⟩
    | bi =>
        simp only [hTest]
        exact ⟨hView, hSent, (if_pos hAlloc).symm⟩
    | exit =>
        simp only [hTest]
        exact ⟨rfl, rfl, rfl⟩
    | unknown code =>
        simp only [hTest]
        exact ⟨trivial, rfl, (if_pos hAlloc).symm⟩

/-- Writing back does not show. -/
theorem view_vtsServerWriteBack (rxBytes : Nat) :
    (vtsServerWriteBack useDs env conn rxBytes).1.view = conn.view := by
  cases useDs with
  | false => rfl
  | true =>
      rw [vtsServerWriteBack_segments]
      dsimp only
      split_ifs <;> rfl

theorem view_vtsServerRx (rxBytes : Nat) :
    (vtsServerRx useDs env conn rxBytes).1.view = conn.view := by
  have hWritten : (if conn.cfg.test = .bi then vtsServerWriteBack useDs env conn rxBytes
      else (conn, [])).1.view = conn.view := by
    split_ifs
    · exact view_vtsServerWriteBack useDs env conn rxBytes
    · rfl
  unfold vtsServerRx
  rw [← hWritten]
  dsimp only
  split_ifs <;> rfl

theorem view_vtsServerEcho (rxBytes : Nat) :
    (vtsServerEcho useDs env conn rxBytes).1.view = conn.view := by
  cases useDs <;> rfl

/-- The connection with which a message is handled, once a config was looked
for. -/
theorem view_looked :
    (if vtsConnExpectConfig (vtsConnRead useDs env conn ds) then
        vtsConnReadConfig V useDs (vtsConnRead useDs env conn ds)
      else vtsConnRead useDs env conn ds).view = conn.view.count ds.data := by
  cases useDs <;> split_ifs <;> rfl

/-- A message of any length that is not handled as a config is counted, and
changes nothing else. -/
theorem view_of_not_handleCfg
    (hRoute : route V useDs (vtsConnRead useDs env conn ds) ≠ .handleCfg) :
    (vtsHandleMessage V useDs env pool index nfds conn ds).conn.view = conn.view.count ds.data ∧
      (vtsHandleMessage V useDs env pool index nfds conn ds).nfds = nfds := by
  have hLooked := view_looked V useDs env conn ds
  unfold vtsHandleMessage
  dsimp only
  cases hChoice : route V useDs (vtsConnRead useDs env conn ds) with
  | handleCfg => exact absurd hChoice hRoute
  | serverRx => exact ⟨(view_vtsServerRx _ _ _ _).trans hLooked, rfl⟩
  | serverEcho => exact ⟨(view_vtsServerEcho _ _ _ _).trans hLooked, rfl⟩
  | notDrained => exact ⟨hLooked, rfl⟩

/-- A message handled as a config, in terms of the protocol. -/
theorem view_of_handleCfg (hAlloc : conn.isAlloc = true)
    (hFits : ds.data.length ≤ conn.bufSize.toNat)
    (hRoute : route V useDs (vtsConnRead useDs env conn ds) = .handleCfg) :
    let handled := vtsHandleMessage V useDs env pool index nfds conn ds
    let after := (conn.view.count ds.data).handleCfg V ds.data
    handled.conn.view = after.1 ∧ sentData handled.calls = after.2.map env.written ∧
      handled.nfds = (if after.1.isAlloc then nfds else nfds - 1) := by
  intro handled after
  obtain ⟨hExpect, -⟩ := route_eq_handleCfg.mp hRoute
  have hLooked := view_looked V useDs env conn ds
  rw [if_pos hExpect] at hLooked
  have hDecode : ds.data.length = V.cfgSize →
      V.decode ((vtsConnReadConfig V useDs (vtsConnRead useDs env conn ds)).buf.bytes.take
        V.cfgSize) = V.decode ds.data := by
    intro hSize
    rw [take_readConfig V useDs env conn ds hSize.ge le_rfl hFits, List.take_of_length_le hSize.le]
  have hCfg := view_vtsHandleCfg V env pool index nfds
    (vtsConnReadConfig V useDs (vtsConnRead useDs env conn ds)) ds.data _
    ((congrArg View.isAlloc hLooked).trans hAlloc) hDecode
  rw [hLooked] at hCfg
  obtain ⟨hView, hSent, hNfds⟩ := hCfg
  have hHandled := vtsHandleMessage_handleCfg V useDs env pool index conn nfds ds hRoute
  unfold handled
  rw [hHandled]
  refine ⟨hView, ?_, hNfds⟩
  have hRead : sentData (readCall useDs conn.fd ds.data.length :: freeCalls useDs conn.fd) = [] := by
    cases useDs <;> rfl
  rw [sentData_append, hRead, hSent, List.nil_append]

/-- One message that is read whole is treated as the protocol says. -/
theorem refines_message (hAlloc : conn.isAlloc = true) (hLong : 4 ≤ ds.data.length)
    (hFits : ds.data.length ≤ conn.bufSize.toNat)
    (hMode : useDs = false ∨ ((conn.view.count ds.data).route V ds.data).Releases) :
    let handled := vtsHandleMessage V useDs env pool index nfds conn ds
    let after := (conn.view.count ds.data).after V ds.data
    handled.route = (conn.view.count ds.data).route V ds.data ∧ handled.conn.view = after ∧
      handled.nfds = (if after.isAlloc then nfds else nfds - 1) := by
  intro handled after
  have hRoute := route_eq_view V useDs env conn ds hLong hFits hMode
  refine ⟨(vtsHandleMessage_route ..).trans hRoute, ?_⟩
  by_cases hConfig : route V useDs (vtsConnRead useDs env conn ds) = .handleCfg
  · obtain ⟨hView, -, hNfds⟩ :=
      view_of_handleCfg V useDs env pool index nfds conn ds hAlloc hFits hConfig
    have hAfter : after = ((conn.view.count ds.data).handleCfg V ds.data).1 := by
      unfold after View.after
      rw [← hRoute, hConfig]
    rw [hAfter]
    exact ⟨hView, hNfds⟩
  · obtain ⟨hView, hNfds⟩ := view_of_not_handleCfg V useDs env pool index nfds conn ds hConfig
    have hAfter : after = conn.view.count ds.data := by
      unfold after View.after
      rw [← hRoute]
      cases hChoice : route V useDs (vtsConnRead useDs env conn ds) with
      | handleCfg => exact absurd hChoice hConfig
      | serverRx => rfl
      | serverEcho => rfl
      | notDrained => rfl
    rw [hAfter]
    exact ⟨hView, hNfds.trans (if_pos hAlloc).symm⟩

/-- A chunk is sent back in a BI test. -/
theorem sentData_vtsServerRx (rxBytes : Nat) :
    sentData (vtsServerRx useDs env conn rxBytes).2 =
      if conn.cfg.test = .bi then sentData (vtsServerWriteBack useDs env conn rxBytes).2 else [] := by
  unfold vtsServerRx
  dsimp only
  split_ifs
  all_goals simp [sentData]

/-- In copy mode the text echoed is that of the message. -/
theorem sentData_vtsServerEcho (hSome : 0 < ds.data.length)
    (hFits : ds.data.length ≤ conn.bufSize.toNat)
    (hBuffer : conn.buf.bytes.take ds.data.length = ds.data) :
    sentData (vtsServerEcho false env conn ds.data.length).2 =
      [env.written (conn.view.echoText ds.data)] := by
  have hLast : (conn.bufSize - 1).toNat = conn.bufSize.toNat - 1 :=
    UInt32.toNat_sub_of_le _ _ (by
      rw [UInt32.le_iff_toNat_le]
      exact hSome.trans_le hFits)
  have hPos : (if ds.data.length < conn.bufSize.toNat then ds.data.length
      else (conn.bufSize - 1).toNat) = min (conn.bufSize.toNat - 1) ds.data.length := by
    rw [hLast]
    split_ifs <;> omega
  have hInside : min (conn.bufSize.toNat - 1) ds.data.length < conn.buf.size.toNat := by
    have hSize : conn.bufSize.toNat = conn.buf.size.toNat := rfl
    omega
  have hText : (conn.buf.terminate (min (conn.bufSize.toNat - 1) ds.data.length)).bytes.takeWhile
      (· ≠ 0) = (ds.data.take (conn.bufSize.toNat - 1)).takeWhile (· ≠ 0) := by
    rw [conn.buf.takeWhile_terminate hInside, ← List.take_take, hBuffer]
  change [env.written ((conn.buf.terminate (if ds.data.length < conn.bufSize.toNat
    then ds.data.length else (conn.bufSize - 1).toNat)).bytes.takeWhile (· ≠ 0) ++ [0])] = _
  rw [hPos, hText]
  rfl

/-- In copy mode the message stands at the front of the buffer. -/
theorem take_read (hFits : ds.data.length ≤ conn.bufSize.toNat) :
    (vtsConnRead false env conn ds).buf.bytes.take ds.data.length = ds.data := by
  calc (conn.buf.write ds.data).bytes.take ds.data.length
      = ds.data.take ds.data.length := conn.buf.take_write ds.data le_rfl hFits
    _ = ds.data := List.take_length

/-- In copy mode looking for a config changes nothing. -/
theorem looked_copy (received : Conn) :
    (if vtsConnExpectConfig received then vtsConnReadConfig V false received else received) =
      received := by
  rw [vtsConnReadConfig, if_neg Bool.false_ne_true, ite_self]

/-- In copy mode a message read whole is answered as the protocol says. -/
theorem sentData_copy (hAlloc : conn.isAlloc = true) (hLong : 4 ≤ ds.data.length)
    (hFits : ds.data.length ≤ conn.bufSize.toNat) :
    sentData (vtsHandleMessage V false env pool index nfds conn ds).calls =
      ((conn.view.count ds.data).reply V ds.data).map env.written := by
  have hRoute := route_eq_view V false env conn ds hLong hFits (Or.inl rfl)
  have hBuffer := take_read env conn ds hFits
  have hLooked := looked_copy V (vtsConnRead false env conn ds)
  unfold View.reply
  rw [← hRoute]
  cases hChoice : route V false (vtsConnRead false env conn ds) with
  | handleCfg =>
      exact (view_of_handleCfg V false env pool index nfds conn ds hAlloc hFits hChoice).2.1
  | serverRx =>
      have hSent := sentData_vtsServerRx false env (vtsConnRead false env conn ds) ds.data.length
      unfold vtsHandleMessage
      dsimp only
      rw [hChoice, hLooked]
      change sentData (vtsServerRx false env (vtsConnRead false env conn ds) ds.data.length).2 = _
      rw [hSent, cfg_read]
      split_ifs
      · change [env.written ((vtsConnRead false env conn ds).buf.bytes.take ds.data.length)] = _
        rw [hBuffer]
        rfl
      · rfl
  | serverEcho =>
      have hSent := sentData_vtsServerEcho env (vtsConnRead false env conn ds) ds (by omega) hFits
        hBuffer
      unfold vtsHandleMessage
      dsimp only
      rw [hChoice, hLooked]
      exact hSent
  | notDrained =>
      unfold vtsHandleMessage
      dsimp only
      rw [hChoice]
      rfl

end Refinement

end DpdkPerf.VclTestServer
