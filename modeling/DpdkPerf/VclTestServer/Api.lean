import Mathlib.Data.List.Basic

/-! What vcl-test-server takes from vcl_test.h and the VPP communications
library: the config message and the counters, the layout of a config message
in memory, and the calls the server makes. -/
namespace DpdkPerf.VclTestServer

abbrev Bytes := List UInt8

/-- The `test` word of a config message. The last case is every value that
is not one of the five test types. -/
inductive TestType where
  | none | echo | uni | bi | exit
  | unknown (code : { code : UInt32 // 4 < code })
  deriving DecidableEq

structure VclTestCfg where
  magic : UInt32
  seqNum : UInt32
  test : TestType
  ctrlHandle : UInt32
  numTestSessions : UInt32
  verbose : UInt32
  rxbufSize : UInt64
  txbufSize : UInt64
  numWrites : UInt64
  totalBytes : UInt64
  deriving DecidableEq

structure Timespec where
  tvSec : Int := 0
  tvNsec : Int := 0
  deriving DecidableEq, Repr

/-- `vcl_comp_tspec (a, b) < 0`. -/
def Timespec.Before (a b : Timespec) : Prop :=
  a.tvSec < b.tvSec ∨ a.tvSec = b.tvSec ∧ a.tvNsec < b.tvNsec

instance (a b : Timespec) : Decidable (a.Before b) :=
  inferInstanceAs (Decidable (_ ∨ _))

/-- The default values are what `memset (&stats, 0, ...)` leaves. -/
structure VclTestStats where
  rxXacts : UInt64 := 0
  rxBytes : UInt64 := 0
  txXacts : UInt64 := 0
  txBytes : UInt64 := 0
  start : Timespec := {}
  stop : Timespec := {}
  deriving DecidableEq, Repr

/-- `vcl_test_stats_accumulate`: the counters of the second are added. -/
def VclTestStats.accumulate (accum incr : VclTestStats) : VclTestStats :=
  { accum with
    rxXacts := accum.rxXacts + incr.rxXacts
    rxBytes := accum.rxBytes + incr.rxBytes
    txXacts := accum.txXacts + incr.txXacts
    txBytes := accum.txBytes + incr.txBytes }

/-- A receive or send buffer with the size recorded beside it. The two are
only ever changed together, by `vcl_test_buf_alloc`. -/
structure Buffer where
  bytes : Bytes
  size : UInt32
  length_eq : bytes.length = size.toNat
  deriving DecidableEq

namespace Buffer

def empty : Buffer := ⟨[], 0, rfl⟩

/-- Bytes copied to the front of the buffer. What lies beyond its end is not
part of it. -/
def write (b : Buffer) (data : Bytes) : Buffer where
  bytes := data.take b.bytes.length ++ b.bytes.drop data.length
  size := b.size
  length_eq := by
    rw [← b.length_eq, List.length_append, List.length_take, List.length_drop]
    omega

/-- `((char *) buf)[pos] = 0`. -/
def terminate (b : Buffer) (pos : Nat) : Buffer where
  bytes := b.bytes.set pos 0
  size := b.size
  length_eq := by rw [List.length_set, b.length_eq]

@[simp] theorem size_write (b : Buffer) (data : Bytes) : (b.write data).size = b.size := rfl

@[simp] theorem size_terminate (b : Buffer) (pos : Nat) : (b.terminate pos).size = b.size := rfl

/-- What fits in the buffer is found at its front. -/
theorem take_write (b : Buffer) (data : Bytes) {n : Nat} (hn : n ≤ data.length)
    (hFits : data.length ≤ b.size.toNat) : (b.write data).bytes.take n = data.take n := by
  rw [← b.length_eq] at hFits
  simp only [write, List.take_of_length_le hFits, List.take_append_of_le_length hn]

/-- The text in a terminated buffer ends where it was terminated, if not
before. -/
theorem takeWhile_terminate (b : Buffer) {pos : Nat} (hPos : pos < b.size.toNat) :
    (b.terminate pos).bytes.takeWhile (· ≠ 0) = (b.bytes.take pos).takeWhile (· ≠ 0) := by
  rw [← b.length_eq] at hPos
  change (b.bytes.set pos 0).takeWhile _ = _
  generalize b.bytes = bytes at hPos
  induction bytes generalizing pos with
  | nil => exact absurd hPos (Nat.not_lt_zero _)
  | cons byte rest ih =>
      cases pos with
      | zero => rfl
      | succ pos =>
          rw [List.set_cons_succ, List.take_succ_cons, List.takeWhile_cons, List.takeWhile_cons,
            ih (Nat.lt_of_succ_lt_succ hPos)]

end Buffer

/-- The parts of vcl_test.h that are fixed when the server is built. A config
message is a packed struct with the magic word in front: `encode` gives its
bytes, and `decode` reads the struct at the front of a buffer. -/
structure VclTestApi where
  cfgSize : Nat
  encode : VclTestCfg → Bytes
  decode : Bytes → VclTestCfg
  ctrlMagic : UInt32
  magicBytes : Bytes
  cfgInit : VclTestCfg
  delayDisconnect : Int
  /-- The bytes of a buffer after `vcl_test_buf_alloc`, given what it held. -/
  realloc : Bytes → UInt32 → Bytes
  encode_length : ∀ cfg, (encode cfg).length = cfgSize
  decode_encode : ∀ cfg, decode (encode cfg) = cfg
  magicBytes_length : magicBytes.length = 4
  take_encode : ∀ cfg, cfg.magic = ctrlMagic → (encode cfg).take 4 = magicBytes
  cfgInit_test : cfgInit.test = .none
  realloc_length : ∀ old size, (realloc old size).length = size.toNat

/-- `vcl_test_buf_alloc` for the receive buffer: the low 32 bits of
`rxbuf_size` are allocated, and both sizes are set to what was. -/
def vclTestBufAlloc (V : VclTestApi) (cfg : VclTestCfg) (buf : Buffer) : VclTestCfg × Buffer :=
  let size := cfg.rxbufSize.toUInt32
  ({ cfg with rxbufSize := size.toUInt64 },
    ⟨V.realloc buf.bytes size, size, V.realloc_length _ _⟩)

/-- The two segments a read exposes without copying. -/
structure Segments where
  first : Bytes := []
  second : Bytes := []
  deriving DecidableEq, Repr

def Segments.data (ds : Segments) : Bytes := ds.first ++ ds.second

/-- The library's side of handling one read: the clock, how many transactions
a read and a write took, after how many bytes writing failed if it did, and
whether more bytes are waiting (`VPPCOM_ATTR_GET_NREAD`). -/
structure Env where
  now : Timespec := {}
  rxXacts : UInt64 := 1
  txXacts : UInt64 := 1
  txLimit : Option Nat := none
  nread : Bool := false
  deriving DecidableEq, Repr

/-- The bytes `vcl_test_write` gets out. -/
def Env.written (env : Env) (data : Bytes) : Bytes :=
  match env.txLimit with
  | none => data
  | some limit => data.take limit

@[simp] theorem written_of_no_limit {env : Env} (h : env.txLimit = none) (data : Bytes) :
    env.written data = data := by
  simp [Env.written, h]

/-- The calls a worker makes, as far as anything outside it can tell. -/
inductive Call where
  | accept (fd : Int32)
  | epollAdd (fd : Int32) (tag : Nat)
  | read (fd : Int32) (count : Nat)
  | readSegments (fd : Int32) (count : Nat)
  | freeSegments (fd : Int32)
  | write (fd : Int32) (data : Bytes)
  | close (fd : Int32)
  | startTime
  | stopTime
  /-- `vcl_test_stats_dump`, for one connection or for SERVER RESULTS. -/
  | statsDump (connection : Option Int32) (stats : VclTestStats)
  deriving DecidableEq

end DpdkPerf.VclTestServer
