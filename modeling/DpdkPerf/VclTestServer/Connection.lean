import DpdkPerf.VclTestServer.Api
import Mathlib.Data.List.Basic

/-! The connection pool of a worker and what the server does with one
message of a connection. A function that writes through a `conn` pointer is
given the record and returns the new one, with the calls it made in order. -/
namespace DpdkPerf.VclTestServer

structure Endpt where
  isIp4 : UInt8 := 0
  port : UInt16 := 0
  deriving DecidableEq, Repr

/-- `vcl_test_server_conn_t`. The pointer `endpt.ip` is always set to the
record's own `ip` before it is used, so it is left out. -/
structure Conn where
  isAlloc : Bool
  fd : Int32
  buf : Buffer
  cfg : VclTestCfg
  stats : VclTestStats
  endpt : Endpt
  ip : Bytes
  ds : Segments
  deriving DecidableEq

abbrev Conn.bufSize (conn : Conn) : UInt32 := conn.buf.size

variable (V : VclTestApi)

/-- A slot as `conn_pool_expand` initialises it. -/
def freshConn : Conn :=
  let (cfg, buf) := vclTestBufAlloc V V.cfgInit .empty
  { isAlloc := false
    fd := 0
    buf := buf
    cfg := { cfg with txbufSize := cfg.rxbufSize }
    stats := {}
    endpt := {}
    ip := List.replicate 16 0
    ds := {} }

/-- `ok` is whether `realloc` succeeds. -/
def connPoolExpand (pool : List Conn) (expandSize : Nat) (ok : Bool) : List Conn :=
  if ok then pool ++ List.replicate expandSize (freshConn V) else pool

/-- The scan of `conn_pool_alloc`, with the first free slot marked. -/
def connPoolScan (pool : List Conn) : Option (List Conn × Nat) :=
  match pool.findIdx? fun conn => !conn.isAlloc with
  | some i => some (pool.modify i fun conn => { conn with isAlloc := true }, i)
  | none => none

/-- One scan, and a second one after an attempt to triple the pool. -/
def connPoolAlloc (pool : List Conn) (ok : Bool) : List Conn × Option Nat :=
  match connPoolScan pool with
  | some (pool, i) => (pool, some i)
  | none =>
      let pool := connPoolExpand V pool (2 * pool.length) ok
      match connPoolScan pool with
      | some (pool, i) => (pool, some i)
      | none => (pool, none)

def connPoolFree (conn : Conn) : Conn :=
  { conn with fd := 0, isAlloc := false }

def syncConfigAndReply (env : Env) (conn : Conn) (rxCfg : VclTestCfg) : Conn × List Call :=
  let (cfg, buf) := vclTestBufAlloc V rxCfg conn.buf
  let cfg := { cfg with txbufSize := cfg.rxbufSize }
  ({ conn with cfg := cfg, buf := buf }, [.write conn.fd (env.written (V.encode cfg))])

/-- One round of the loop over the pool at the end of a test. The element at
`conn`'s own index is `conn` itself, with what earlier rounds did to it. -/
def accumulateSlot (pool : List Conn) (index : Nat) (acc : Conn × List Call) (i : Nat) :
    Conn × List Call :=
  let (conn, calls) := acc
  let tc (conn : Conn) : Conn := if i = index then conn else pool.getD i conn
  if (tc conn).cfg.ctrlHandle ≠ conn.fd.toUInt32 then (conn, calls)
  else
    let conn := { conn with stats := conn.stats.accumulate (tc conn).stats }
    let conn :=
      if conn.stats.stop.Before (tc conn).stats.stop then
        { conn with stats := { conn.stats with stop := (tc conn).stats.stop } }
      else conn
    -- client delays sending of disconnect
    let stop := conn.stats.stop
    let conn := { conn with stats :=
      { conn.stats with stop := { stop with tvSec := stop.tvSec - V.delayDisconnect } } }
    if conn.cfg.verbose ≠ 0 then
      (conn, calls ++ [.statsDump (some (tc conn).fd) (tc conn).stats])
    else (conn, calls)

/-- `rx_cfg` points into the connection's buffer, so a changed `ctrl_handle`
is written there too. -/
def vtsServerStartStop (env : Env) (pool : List Conn) (index : Nat) (conn : Conn)
    (rxCfg : VclTestCfg) : Conn × List Call :=
  if rxCfg.ctrlHandle = conn.fd.toUInt32 then
    let (conn, calls) := (List.range pool.length).foldl (accumulateSlot V pool index) (conn, [])
    let results := [Call.statsDump none conn.stats]
    let (conn, reply) := syncConfigAndReply V env conn rxCfg
    ({ conn with stats := {} }, calls ++ results ++ reply)
  else
    let (conn, rxCfg) :=
      if rxCfg.ctrlHandle = 0xffffffff then
        let rxCfg := { rxCfg with ctrlHandle := conn.fd.toUInt32 }
        ({ conn with buf := conn.buf.write (V.encode rxCfg) }, rxCfg)
      else (conn, rxCfg)
    let (conn, reply) := syncConfigAndReply V env conn rxCfg
    ({ conn with stats := { start := env.now } }, reply ++ [.startTime])

def writeCounted (env : Env) (conn : Conn) (data : Bytes) : Conn × List Call :=
  let sent := env.written data
  ({ conn with stats := { conn.stats with
      txXacts := conn.stats.txXacts + env.txXacts
      txBytes := conn.stats.txBytes + UInt64.ofNat sent.length } },
    [.write conn.fd sent])

/-- The write back of a bi-directional test, from the segments or from the
buffer. -/
def vtsServerWriteBack (useDs : Bool) (env : Env) (conn : Conn) (rxBytes : Nat) :
    Conn × List Call :=
  if useDs then
    let (conn, first) := writeCounted env conn conn.ds.first
    if conn.ds.second.length ≠ 0 then
      let (conn, second) := writeCounted env conn conn.ds.second
      (conn, first ++ second)
    else (conn, first)
  else writeCounted env conn (conn.buf.bytes.take rxBytes)

def vtsServerRx (useDs : Bool) (env : Env) (conn : Conn) (rxBytes : Nat) : Conn × List Call :=
  let (conn, written) :=
    if conn.cfg.test = .bi then vtsServerWriteBack useDs env conn rxBytes else (conn, [])
  let freed := if useDs then [Call.freeSegments conn.fd] else []
  if conn.stats.rxBytes ≥ conn.cfg.totalBytes then
    ({ conn with stats := { conn.stats with stop := env.now } }, written ++ freed ++ [.stopTime])
  else (conn, written ++ freed)

/-- The text is what precedes the first NUL once the buffer is terminated
after the message, or at its last byte if the message fills it. -/
def vtsServerEcho (useDs : Bool) (env : Env) (conn : Conn) (rxBytes : Nat) : Conn × List Call :=
  let conn := if useDs then { conn with buf := conn.buf.write (conn.ds.data.take rxBytes) } else conn
  let pos := if rxBytes < conn.bufSize.toNat then rxBytes else (conn.bufSize - 1).toNat
  let conn := { conn with buf := conn.buf.terminate pos }
  writeCounted env conn (conn.buf.bytes.takeWhile (· ≠ 0) ++ [0])

/-- A config message of any kind, for the connection in slot `index`. The
third component is the worker's `nfds`. -/
def vtsHandleCfg (env : Env) (pool : List Conn) (index : Nat) (nfds : Int) (conn : Conn)
    (rxCfg : VclTestCfg) (rxBytes : Nat) : Conn × List Call × Int :=
  if rxBytes ≠ V.cfgSize then
    let conn := { conn with cfg := { conn.cfg with rxbufSize := 0, numWrites := 0 } }
    (conn, [.write conn.fd (env.written (V.encode conn.cfg))], nfds)
  else
    match rxCfg.test with
    | .none | .echo =>
        let (conn, calls) := syncConfigAndReply V env conn rxCfg
        (conn, calls, nfds)
    | .bi | .uni =>
        let (conn, calls) := vtsServerStartStop V env pool index conn rxCfg
        (conn, calls, nfds)
    | .exit =>
        let stopped := { conn with stats := { conn.stats with stop := env.now } }
        (connPoolFree stopped, [.stopTime, .close conn.fd], nfds - 1)
    | .unknown _ => (conn, [], nfds)

/-- A config message may follow, by the state alone. -/
def vtsConnExpectConfig (conn : Conn) : Bool :=
  conn.cfg.test = .echo ||
    (conn.stats.rxBytes < 128 || conn.stats.rxBytes > conn.cfg.totalBytes)

/-- Where `rx_cfg` points is the front of `conn.buf` in both modes. -/
def vtsConnReadConfig (useDs : Bool) (conn : Conn) : Conn :=
  if useDs then { conn with buf := conn.buf.write (conn.ds.data.take V.cfgSize) } else conn

/-- A read that returned the message `ds`, which in copy mode is gathered in
the buffer. -/
def vtsConnRead (useDs : Bool) (env : Env) (conn : Conn) (ds : Segments) : Conn :=
  let stats := { conn.stats with
    rxXacts := conn.stats.rxXacts + env.rxXacts
    rxBytes := conn.stats.rxBytes + UInt64.ofNat ds.data.length }
  if useDs then { conn with ds := ds, stats := stats }
  else { conn with buf := conn.buf.write ds.data, stats := stats }

def vtsConnHasAscii (useDs : Bool) (conn : Conn) : Bool :=
  if useDs then conn.ds.first.headD 0 < 128 else conn.buf.bytes.headD 0 < 128

/-- `rx_cfg->magic == VCL_TEST_CFG_CTRL_MAGIC`. -/
def hasMagic (conn : Conn) : Bool :=
  conn.buf.bytes.take 4 = V.magicBytes

/-- Which of the four things the worker loop does with a message. -/
inductive Route where
  | handleCfg | serverRx | serverEcho | notDrained
  deriving DecidableEq, Repr

/-- The choice between them, on a connection that has read the message. -/
def route (useDs : Bool) (conn : Conn) : Route :=
  if vtsConnExpectConfig conn && hasMagic V (vtsConnReadConfig V useDs conn) then .handleCfg
  else if conn.cfg.test = .uni || conn.cfg.test = .bi then .serverRx
  else if vtsConnHasAscii useDs
      (if vtsConnExpectConfig conn then vtsConnReadConfig V useDs conn else conn) then .serverEcho
  else .notDrained

/-- What became of a message. -/
structure Handled where
  route : Route
  conn : Conn
  calls : List Call
  nfds : Int
  deriving DecidableEq

/-- One pass of the worker loop over a message, from `vts_conn_read` on. -/
def vtsHandleMessage (useDs : Bool) (env : Env) (pool : List Conn) (index : Nat) (nfds : Int)
    (conn : Conn) (ds : Segments) : Handled :=
  let conn := vtsConnRead useDs env conn ds
  let rxBytes := ds.data.length
  let read := if useDs then Call.readSegments conn.fd rxBytes else .read conn.fd rxBytes
  let choice := route V useDs conn
  let conn := if vtsConnExpectConfig conn then vtsConnReadConfig V useDs conn else conn
  match choice with
  | .handleCfg =>
      let freed := if useDs then [Call.freeSegments conn.fd] else []
      let (conn, calls, nfds) := vtsHandleCfg V env pool index nfds conn
        (V.decode (conn.buf.bytes.take V.cfgSize)) rxBytes
      ⟨choice, conn, read :: freed ++ calls, nfds⟩
  | .serverRx =>
      let (conn, calls) := vtsServerRx useDs env conn rxBytes
      ⟨choice, conn, read :: calls, nfds⟩
  | .serverEcho =>
      let (conn, calls) := vtsServerEcho useDs env conn rxBytes
      ⟨choice, conn, read :: calls, nfds⟩
  | .notDrained => ⟨choice, conn, [read], nfds⟩

end DpdkPerf.VclTestServer
