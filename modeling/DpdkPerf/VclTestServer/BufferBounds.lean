import DpdkPerf.VclTestServer.BufferSizes

/-! Where the server writes in the buffer of a connection when it reads
without copying: the front of the message it looks for a config in, and the
text of the message it echoes. -/
namespace DpdkPerf.VclTestServer

/-- The indices that `vppcom_data_segment_copy` writes. -/
def segmentCopyWrites (ds : Segments) (maxBytes : Nat) : List Int :=
  (List.range (min maxBytes ds.data.length)).map Int.ofNat

/-- The indices that `vts_conn_read_config` writes. -/
def readConfigWrites (V : VclTestApi) (conn : Conn) : List Int :=
  segmentCopyWrites conn.ds V.cfgSize

/-- The place of the terminator. The size of the buffer is unsigned, and so is
the comparison with it. -/
def echoPos (conn : Conn) (rxBytes : Int32) : Int32 :=
  (if rxBytes.toUInt32 < conn.bufSize then rxBytes.toUInt32 else conn.bufSize - 1).toInt32

/-- The indices that `vts_server_echo` writes. -/
def echoWrites (conn : Conn) (rxBytes : Int32) : List Int :=
  segmentCopyWrites conn.ds rxBytes.toUInt32.toNat ++ [(echoPos conn rxBytes).toInt]

/-- What is written in the buffer for one message, as long as it is not
reallocated. -/
def messageWrites (V : VclTestApi) (env : Env) (conn : Conn) (ds : Segments) : List Int :=
  let received := vtsConnRead true env conn ds
  (if vtsConnExpectConfig received then readConfigWrites V received else []) ++
    if route V true received = .serverEcho then echoWrites received (.ofNat ds.data.length) else []

/-- An index in a buffer of this size. -/
def InBounds (size : UInt32) (k : Int) : Prop := 0 ≤ k ∧ k < size.toNat

/-- The buffer has room for the front of a message in which a config is looked
for, and for all of a message that is echoed. -/
structure Conn.Roomy (V : VclTestApi) (env : Env) (conn : Conn) (ds : Segments) : Prop where
  config : vtsConnExpectConfig (vtsConnRead true env conn ds) = true →
    min V.cfgSize ds.data.length ≤ conn.bufSize.toNat
  echo : route V true (vtsConnRead true env conn ds) = .serverEcho →
    ds.data.length ≤ conn.bufSize.toNat ∧ 0 < conn.bufSize.toNat

instance (V : VclTestApi) (env : Env) (conn : Conn) (ds : Segments) :
    Decidable (conn.Roomy V env ds) :=
  decidable_of_iff (_ ∧ _) ⟨fun h => ⟨h.1, h.2⟩, fun h => ⟨h.config, h.echo⟩⟩

section Message

variable {V : VclTestApi} {env : Env} {conn : Conn} {ds : Segments} {k : Nat}

/-- A word below the sign bit is the same number as an int. -/
theorem toInt_toInt32 {word : UInt32} (h : word.toNat < 2 ^ 31) :
    word.toInt32.toInt = word.toNat := by
  have hWord : word.toInt32 = Int32.ofNat word.toNat := by
    rw [← UInt32.toInt32_ofNat', UInt32.ofNat_toNat]
  rw [hWord, Int32.toInt_ofNat_of_lt h]

/-- The copy writes at the indices of what it copies. -/
theorem mem_segmentCopyWrites {maxBytes : Nat} :
    (k : Int) ∈ segmentCopyWrites ds maxBytes ↔ k < (ds.data.take maxBytes).length := by
  rw [List.length_take]
  constructor
  · intro h
    obtain ⟨j, hj, hEq⟩ := List.mem_map.mp h
    obtain rfl := Int.ofNat.inj hEq
    exact List.mem_range.mp hj
  · exact fun h => List.mem_map.mpr ⟨k, List.mem_range.mpr h, rfl⟩

theorem forall_segmentCopyWrites {maxBytes : Nat} {size : UInt32} :
    (∀ k ∈ segmentCopyWrites ds maxBytes, InBounds size k) ↔
      min maxBytes ds.data.length ≤ size.toNat := by
  unfold segmentCopyWrites InBounds
  generalize min maxBytes ds.data.length = n
  simp only [List.forall_mem_map, List.mem_range]
  constructor
  · intro h
    by_contra hOver
    have hLast := h size.toNat (not_le.mp hOver)
    exact Int.lt_irrefl _ hLast.2
  · intro h k hk
    exact ⟨Int.natCast_nonneg k, Int.ofNat_lt.mpr (hk.trans_le h)⟩

theorem toNat_rxBytes {rxBytes : Nat} (hInt : rxBytes < 2 ^ 31) :
    (Int32.ofNat rxBytes).toUInt32.toNat = rxBytes := by
  rw [Int32.toUInt32_ofNat', UInt32.toNat_ofNat', Nat.mod_eq_of_lt (by omega)]

/-- The terminator is put where the buffer model has it, except in a buffer
without any bytes. -/
theorem toInt_echoPos {rxBytes : Nat} (hInt : rxBytes < 2 ^ 31) :
    (echoPos conn (.ofNat rxBytes)).toInt =
      if rxBytes < conn.bufSize.toNat then (rxBytes : Int) else conn.bufSize.toNat - 1 := by
  have hLength := toNat_rxBytes hInt
  unfold echoPos
  by_cases hShort : rxBytes < conn.bufSize.toNat
  · rw [if_pos (UInt32.lt_iff_toNat_lt.mpr (hLength.trans_lt hShort)),
      toInt_toInt32 (hLength.trans_lt hInt), hLength, if_pos hShort]
  · rw [if_neg fun hLess => hShort (hLength.symm.trans_lt (UInt32.lt_iff_toNat_lt.mp hLess)),
      if_neg hShort]
    by_cases hSome : 0 < conn.bufSize.toNat
    · have hLast : (conn.bufSize - 1).toNat = conn.bufSize.toNat - 1 :=
        UInt32.toNat_sub_of_le _ _ (UInt32.le_iff_toNat_le.mpr hSome)
      rw [toInt_toInt32 (by omega), hLast]
      omega
    · have hNone : conn.bufSize = 0 := UInt32.toNat_inj.mp (by simpa using hSome)
      rw [hNone]
      decide

/-- Behind what is written a buffer is as it was. -/
theorem getElem?_write (b : Buffer) {data : Bytes} (h : data.length ≤ k) :
    (b.write data).bytes[k]? = b.bytes[k]? := by
  show (data.take b.bytes.length ++ b.bytes.drop data.length)[k]? = _
  rw [List.getElem?_append_right (by rw [List.length_take]; omega), List.getElem?_drop,
    List.length_take]
  by_cases hFits : data.length ≤ b.bytes.length
  · congr 1
    omega
  · rw [List.getElem?_eq_none_iff.mpr (by omega), List.getElem?_eq_none_iff.mpr (by omega)]

/-- A byte at no index that is written stays as it is. -/
theorem readConfig_frame (h : (k : Int) ∉ readConfigWrites V conn) :
    (vtsConnReadConfig V true conn).buf.bytes[k]? = conn.buf.bytes[k]? := by
  rw [readConfigWrites, mem_segmentCopyWrites, not_lt] at h
  exact getElem?_write conn.buf h

theorem echo_frame {rxBytes : Nat} (hInt : rxBytes < 2 ^ 31)
    (h : (k : Int) ∉ echoWrites conn (.ofNat rxBytes)) :
    (vtsServerEcho true env conn rxBytes).1.buf.bytes[k]? = conn.buf.bytes[k]? := by
  rw [echoWrites, List.mem_append, List.mem_singleton, not_or, toNat_rxBytes hInt,
    toInt_echoPos hInt, mem_segmentCopyWrites, not_lt] at h
  obtain ⟨hBeyond, hPos⟩ := h
  have hWritten := getElem?_write conn.buf hBeyond
  show ((conn.buf.write (conn.ds.data.take rxBytes)).bytes.set
    (if rxBytes < conn.bufSize.toNat then rxBytes else (conn.bufSize - 1).toNat) 0)[k]? = _
  by_cases hNone : conn.bufSize.toNat ≤ k
  · have hLength : conn.buf.bytes.length ≤ k := conn.buf.length_eq.trans_le hNone
    have hSame := (conn.buf.write (conn.ds.data.take rxBytes)).length_eq
    rw [List.getElem?_eq_none_iff.mpr (by rw [List.length_set, hSame]; exact hNone),
      List.getElem?_eq_none_iff.mpr hLength]
  · have hLast : (conn.bufSize - 1).toNat = conn.bufSize.toNat - 1 :=
      UInt32.toNat_sub_of_le _ _ (UInt32.le_iff_toNat_le.mpr (show 1 ≤ conn.bufSize.toNat by omega))
    have hOther : (if rxBytes < conn.bufSize.toNat then rxBytes else (conn.bufSize - 1).toNat) ≠ k := by
      rw [hLast]
      split_ifs at hPos ⊢ <;> omega
    rw [List.getElem?_set_ne hOther, hWritten]

/-- The terminator of a message that fits is in bounds, unless the buffer has
no size at all. -/
theorem inBounds_echoPos (conn : Conn) (hInt : ds.data.length < 2 ^ 31)
    (hFits : ds.data.length ≤ conn.bufSize.toNat) :
    InBounds conn.bufSize (echoPos conn (.ofNat ds.data.length)).toInt ↔ 0 < conn.bufSize.toNat := by
  unfold InBounds
  rw [toInt_echoPos hInt]
  split_ifs <;> omega

/-- All that is written for a message is in bounds exactly if the buffer has
room for it. -/
theorem inBounds_messageWrites (hInt : ds.data.length < 2 ^ 31) :
    (∀ k ∈ messageWrites V env conn ds, InBounds conn.bufSize k) ↔ conn.Roomy V env ds := by
  have hConfig : (∀ k ∈ (if vtsConnExpectConfig (vtsConnRead true env conn ds) then
      readConfigWrites V (vtsConnRead true env conn ds) else []), InBounds conn.bufSize k) ↔
        (vtsConnExpectConfig (vtsConnRead true env conn ds) = true →
          min V.cfgSize ds.data.length ≤ conn.bufSize.toNat) := by
    have hCopied : (vtsConnRead true env conn ds).ds = ds := rfl
    split_ifs with hExpect
    · unfold readConfigWrites
      rw [forall_segmentCopyWrites, hCopied]
      simp only [hExpect, forall_const]
    · simp [hExpect]
  have hEcho : (∀ k ∈ (if route V true (vtsConnRead true env conn ds) = .serverEcho then
      echoWrites (vtsConnRead true env conn ds) (.ofNat ds.data.length) else []),
        InBounds conn.bufSize k) ↔
        (route V true (vtsConnRead true env conn ds) = .serverEcho →
          ds.data.length ≤ conn.bufSize.toNat ∧ 0 < conn.bufSize.toNat) := by
    have hLength := toNat_rxBytes hInt
    split_ifs with hRoute
    · have hCopied : (vtsConnRead true env conn ds).ds = ds := rfl
      unfold echoWrites
      rw [List.forall_mem_append, forall_segmentCopyWrites, hLength, hCopied, min_self,
        List.forall_mem_singleton]
      simp only [hRoute, forall_const]
      exact and_congr_right fun hFits => inBounds_echoPos conn hInt hFits
    · simp [hRoute]
  unfold messageWrites
  dsimp only
  rw [List.forall_mem_append, hConfig, hEcho]
  exact ⟨fun h => ⟨h.1, h.2⟩, fun h => ⟨h.config, h.echo⟩⟩

end Message

section Runs

variable {V : VclTestApi} {s : Server} {input : Input}

/-- What is written for the message of a step stays in the buffer. -/
def Server.WritesInBounds (V : VclTestApi) (s : Server) (input : Input) : Prop :=
  ∀ i rx conn, s.clientRead i input = some rx → s.worker.connPool[i]? = some conn →
    ∀ k ∈ messageWrites V rx.env conn rx.ds, InBounds conn.bufSize k

def Server.HasRoom (V : VclTestApi) (s : Server) (input : Input) : Prop :=
  ∀ i rx conn, s.clientRead i input = some rx → s.worker.connPool[i]? = some conn →
    conn.Roomy V rx.env rx.ds

instance (s : Server) (input : Input) : Decidable (s.HasRoom V input) :=
  decidable_of_iff (∀ i ∈ List.range s.worker.connPool.length, ∀ rx ∈ s.clientRead i input,
      ∀ conn ∈ s.worker.connPool[i]?, conn.Roomy V rx.env rx.ds) <| by
    constructor
    · intro h i rx conn hRead hSlot
      exact h i (List.mem_range.mpr (List.getElem?_eq_some_iff.mp hSlot).1) rx hRead conn hSlot
    · intro h i _ rx hRead conn hSlot
      exact h i rx conn hRead hSlot

/-- A read returns the length of its message as an `int`. -/
def Input.ReturnsInt : Input → Prop
  | .read _ (.message ds) => ds.data.length < 2 ^ 31
  | _ => True

/-- The writes of a step are in bounds if and only if there is room for what
was read. -/
theorem Server.writesInBounds_iff_hasRoom (hInt : input.ReturnsInt) :
    s.WritesInBounds V input ↔ s.HasRoom V input := by
  unfold WritesInBounds HasRoom
  refine forall₃_congr fun i rx conn => forall_congr' fun hRead => imp_congr_right fun _ => ?_
  obtain ⟨-, rfl⟩ := clientRead_eq_some.mp hRead
  exact inBounds_messageWrites hInt

/-- In every run in zero-copy mode the server keeps to the buffers exactly if
they have room for the messages, whatever sizes their clients asked for. -/
theorem writesInBounds_iff (V : VclTestApi) (poolSize : Nat) {inputs : List Input}
    (hInt : ∀ input ∈ inputs, input.ReturnsInt) :
    (server V true).Meets (Server.WritesInBounds V) (.initial V poolSize) inputs ↔
      (server V true).Meets (Server.HasRoom V) (.initial V poolSize) inputs := by
  have hReads := Machine.meets_of_inputs (M := server V true) hInt (.initial V poolSize)
  constructor
  · intro h
    exact (h.and hReads).mono fun s input hStep =>
      (Server.writesInBounds_iff_hasRoom hStep.2).mp hStep.1
  · intro h
    exact (h.and hReads).mono fun s input hStep =>
      (Server.writesInBounds_iff_hasRoom hStep.2).mpr hStep.1

/-- A config leaves the size of the buffer or sets the one it asks for. -/
theorem bufSize_vtsHandleCfg (env : Env) (pool : List Conn) (i : Nat) (nfds : Int) (conn : Conn)
    (rxCfg : VclTestCfg) (rxBytes : Nat) :
    (vtsHandleCfg V env pool i nfds conn rxCfg rxBytes).1.bufSize = conn.bufSize ∨
      (vtsHandleCfg V env pool i nfds conn rxCfg rxBytes).1.bufSize = rxCfg.rxbufSize.toUInt32 := by
  have hTest : (vtsServerStartStop V env pool i conn rxCfg).1.bufSize = rxCfg.rxbufSize.toUInt32 := by
    have hView := (view_vtsServerStartStop V env pool i conn rxCfg).1
    refine (congrArg View.bufSize hView).trans ?_
    show (startedCfg conn.fd rxCfg).rxbufSize.toUInt32 = _
    unfold startedCfg
    split_ifs <;> rfl
  unfold vtsHandleCfg
  split_ifs with hSize
  · exact Or.inl rfl
  · cases rxCfg.test with
    | none => exact Or.inr rfl
    | echo => exact Or.inr rfl
    | uni => exact Or.inr hTest
    | bi => exact Or.inr hTest
    | exit => exact Or.inl rfl
    | unknown code => exact Or.inl rfl

/-- The message of a step is at most `n` bytes long, and if it is a config it
asks for a buffer of at least that size. -/
def Server.AsksFor (V : VclTestApi) (n : Nat) (s : Server) (input : Input) : Prop :=
  ∀ i rx conn, s.clientRead i input = some rx → s.worker.connPool[i]? = some conn →
    rx.msg.length ≤ n ∧
      (route V true (vtsConnRead true rx.env conn rx.ds) = .handleCfg →
        let config := vtsConnReadConfig V true (vtsConnRead true rx.env conn rx.ds)
        n ≤ (V.decode (config.buf.bytes.take V.cfgSize)).rxbufSize.toUInt32.toNat)

/-- It is enough that no client asks for less than the longest message. -/
theorem hasRoom_of_asksFor {n poolSize : Nat} {inputs : List Input} (hPos : 0 < n)
    (hFresh : n ≤ (freshConn V).bufSize.toNat)
    (h : (server V true).Meets (Server.AsksFor V n) (.initial V poolSize) inputs) :
    (server V true).Meets (Server.HasRoom V) (.initial V poolSize) inputs := by
  refine h.meets_of_invariant (I := fun s => ∀ conn ∈ s.worker.connPool, n ≤ conn.bufSize.toNat)
    ?_ ?_ ?_
  · intro s input hAsks hAll
    refine forall_connPool_next hFresh (fun conn conn' _ hSize hLarge => hSize ▸ hLarge) ?_ hAll
    intro i rx conn hRead hSlot hLarge
    by_cases hRoute : route V true (vtsConnRead true rx.env conn rx.ds) = .handleCfg
    · have hAsked := (hAsks i rx conn hRead hSlot).2 hRoute
      rw [vtsHandleMessage_handleCfg V true rx.env _ i conn _ rx.ds hRoute]
      dsimp only
      rcases bufSize_vtsHandleCfg (V := V) rx.env s.worker.connPool i s.worker.nfds
        (vtsConnReadConfig V true (vtsConnRead true rx.env conn rx.ds))
        (V.decode ((vtsConnReadConfig V true (vtsConnRead true rx.env conn rx.ds)).buf.bytes.take
          V.cfgSize)) rx.ds.data.length with hSame | hNew
      · rw [hSame]
        exact hLarge
      · rw [hNew]
        exact hAsked
    · rw [((message_sizes V true rx.env _ i _ conn rx.ds).2 hRoute).2]
      exact hLarge
  · intro s input hAsks hAll i rx conn hRead hSlot
    have hLarge := hAll conn (List.mem_of_getElem? hSlot)
    have hShort : rx.ds.data.length ≤ conn.bufSize.toNat :=
      (hAsks i rx conn hRead hSlot).1.trans hLarge
    exact ⟨fun _ => (min_le_right _ _).trans hShort, fun _ => ⟨hShort, hPos.trans_le hLarge⟩⟩
  · intro conn hMem
    rw [List.eq_of_mem_replicate hMem]
    exact hFresh

/-- A client that keeps to the buffer it is given at first. -/
theorem writesInBounds_iff_echo :
    let client : Input := .event ⟨.listener, false, false, true⟩ ⟨true, 5, 0, {}, []⟩
    let readable : Input := .event ⟨.client 0, false, false, true⟩ ⟨true, 7, 0, {}, []⟩
    let config : Bytes := packedApi.encode { defaultCfg with test := .echo }
    let inputs : List Input := [client, readable, .read {} (.message ⟨config, []⟩), readable,
      .read {} (.message ⟨[104, 105], []⟩)]
    (server packedApi true).Meets (Server.HasRoom packedApi) (.initial packedApi 1) inputs ∧
      (server packedApi true).Meets (Server.WritesInBounds packedApi) (.initial packedApi 1)
        inputs := by
  intro client readable config inputs
  have hRoom : (server packedApi true).Meets (Server.HasRoom packedApi) (.initial packedApi 1)
      inputs := by
    decide +kernel
  refine ⟨hRoom, (writesInBounds_iff packedApi 1 fun input hMem => ?_).mpr hRoom⟩
  simp only [inputs, List.mem_cons, List.not_mem_nil, or_false] at hMem
  rcases hMem with rfl | rfl | rfl | rfl | rfl
  all_goals first
    | exact trivial
    | exact show _ < 2 ^ 31 by decide

/-- A client asks for a buffer of 16 bytes and sends a text of 20 bytes, of
which all are copied into it. -/
theorem not_writesInBounds :
    let client : Input := .event ⟨.listener, false, false, true⟩ ⟨true, 5, 0, {}, []⟩
    let readable : Input := .event ⟨.client 0, false, false, true⟩ ⟨true, 7, 0, {}, []⟩
    let config : Bytes := packedApi.encode { defaultCfg with test := .echo, rxbufSize := 16 }
    let text : Segments := ⟨List.replicate 20 104, []⟩
    let inputs : List Input := [client, readable, .read {} (.message ⟨config, []⟩), readable,
      .read {} (.message text)]
    (server packedApi true).Admits (.initial packedApi 1) inputs ∧
      ¬ (server packedApi true).Meets (Server.WritesInBounds packedApi) (.initial packedApi 1)
        inputs := by
  intro client readable config text inputs
  let s := (server packedApi true).run (.initial packedApi 1)
    [client, readable, .read {} (.message ⟨config, []⟩), readable]
  let rx : Rx := ⟨{}, text⟩
  have hRun : (server packedApi true).Admits (.initial packedApi 1) inputs ∧
      s.clientRead 0 (.read rx.env (.message rx.ds)) = some rx ∧
      ∃ conn ∈ s.worker.connPool[0]?,
        vtsConnExpectConfig (vtsConnRead true rx.env conn rx.ds) = true ∧ conn.bufSize = 16 := by
    decide +kernel
  obtain ⟨hAdmits, hRead, conn, hSlot, hExpect, hSize⟩ := hRun
  refine ⟨hAdmits, fun hMeets => ?_⟩
  have hStep : s.WritesInBounds packedApi (.read rx.env (.message rx.ds)) := by
    simp only [inputs, Machine.meets_cons] at hMeets
    exact hMeets.2.2.2.2.1
  have hInt : Input.ReturnsInt (.read rx.env (.message rx.ds)) := show _ < 2 ^ 31 by decide
  have hRoomy := (Server.writesInBounds_iff_hasRoom hInt).mp hStep 0 rx conn hRead hSlot
  have hCopied := hRoomy.config hExpect
  rw [hSize] at hCopied
  exact absurd hCopied (by decide)

end Runs

end DpdkPerf.VclTestServer
