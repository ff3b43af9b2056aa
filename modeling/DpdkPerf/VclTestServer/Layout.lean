import DpdkPerf.Machine.PackedStruct
import DpdkPerf.VclTestServer.Worker

/-! The layout of vcl_test.h on a little-endian machine: a config message is
a packed struct of six 32-bit and four 64-bit words, fifty-six bytes long. -/
namespace DpdkPerf.VclTestServer

def TestType.code : TestType → UInt32
  | .none => 0
  | .echo => 1
  | .uni => 2
  | .bi => 3
  | .exit => 4
  | .unknown code => code.val

def TestType.ofCode (code : UInt32) : TestType :=
  if h : 4 < code then .unknown ⟨code, h⟩
  else if code = 0 then .none
  else if code = 1 then .echo
  else if code = 2 then .uni
  else if code = 3 then .bi
  else .exit

@[simp] theorem ofCode_code (test : TestType) : TestType.ofCode test.code = test := by
  cases test with
  | none => rfl
  | echo => rfl
  | uni => rfl
  | bi => rfl
  | exit => rfl
  | unknown code => exact dif_pos code.property

/-- The words of a config message in order, with their widths. -/
def cfgFields (cfg : VclTestCfg) : List (Nat × Nat) :=
  [(4, cfg.magic.toNat), (4, cfg.seqNum.toNat), (4, cfg.test.code.toNat),
    (4, cfg.ctrlHandle.toNat), (4, cfg.numTestSessions.toNat), (4, cfg.verbose.toNat),
    (8, cfg.rxbufSize.toNat), (8, cfg.txbufSize.toNat), (8, cfg.numWrites.toNat),
    (8, cfg.totalBytes.toNat)]

def cfgWidths : List Nat := [4, 4, 4, 4, 4, 4, 8, 8, 8, 8]

theorem cfgFields_widths (cfg : VclTestCfg) : (cfgFields cfg).map Prod.fst = cfgWidths := rfl

theorem cfgFields_fit (cfg : VclTestCfg) :
    ∀ field ∈ cfgFields cfg, field.2 < 256 ^ field.1 := by
  have hWord (x : UInt32) : x.toNat < 256 ^ 4 := x.toNat_lt
  have hLong (x : UInt64) : x.toNat < 256 ^ 8 := x.toNat_lt
  simp only [cfgFields, List.forall_mem_cons]
  exact ⟨hWord _, hWord _, hWord _, hWord _, hWord _, hWord _, hLong _, hLong _, hLong _, hLong _,
    fun _ h => absurd h List.not_mem_nil⟩

/-- `VCL_TEST_CFG_CTRL_MAGIC`. -/
def cfgCtrlMagic : UInt32 := 0xfeedface

/-- `vcl_test_cfg_init`: a buffer of 64 times the least size, 128 bytes, and
a million writes of one such buffer. -/
def defaultCfg : VclTestCfg where
  magic := cfgCtrlMagic
  seqNum := 0
  test := .none
  ctrlHandle := 0xffffffff
  numTestSessions := 1
  verbose := 0
  rxbufSize := 8192
  txbufSize := 8192
  numWrites := 1000000
  totalBytes := 8192000000

def cfgOfWords : List Nat → VclTestCfg
  | [magic, seqNum, test, ctrlHandle, numTestSessions, verbose, rxbufSize, txbufSize, numWrites,
      totalBytes] =>
      { magic := .ofNat magic
        seqNum := .ofNat seqNum
        test := .ofCode (.ofNat test)
        ctrlHandle := .ofNat ctrlHandle
        numTestSessions := .ofNat numTestSessions
        verbose := .ofNat verbose
        rxbufSize := .ofNat rxbufSize
        txbufSize := .ofNat txbufSize
        numWrites := .ofNat numWrites
        totalBytes := .ofNat totalBytes }
  | _ => defaultCfg

theorem cfgOfWords_fields (cfg : VclTestCfg) :
    cfgOfWords ((cfgFields cfg).map Prod.snd) = cfg := by
  simp [cfgFields, cfgOfWords]

/-- The server built against this header. -/
def packedApi : VclTestApi where
  cfgSize := 56
  encode cfg := PackedStruct.pack (cfgFields cfg)
  decode bytes := cfgOfWords (PackedStruct.unpack cfgWidths bytes)
  ctrlMagic := cfgCtrlMagic
  magicBytes := PackedStruct.leBytes 4 cfgCtrlMagic.toNat
  cfgInit := defaultCfg
  delayDisconnect := 1
  realloc old size := (old ++ List.replicate size.toNat 0).take size.toNat
  encode_length cfg := by rw [PackedStruct.length_pack, cfgFields_widths]; rfl
  decode_encode cfg := by
    rw [← cfgFields_widths cfg, PackedStruct.unpack_pack (cfgFields_fit cfg), cfgOfWords_fields]
  magicBytes_length := PackedStruct.length_leBytes _ _
  take_encode cfg h := by
    have hPack : PackedStruct.pack (cfgFields cfg) =
        PackedStruct.leBytes 4 cfg.magic.toNat ++ PackedStruct.pack (cfgFields cfg).tail := rfl
    rw [hPack, h, List.take_left' (PackedStruct.length_leBytes _ _)]
  cfgInit_test := rfl
  realloc_length old size := by
    rw [List.length_take, List.length_append, List.length_replicate]
    omega

end DpdkPerf.VclTestServer
