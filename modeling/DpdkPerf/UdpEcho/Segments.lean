import DpdkPerf.Machine.PackedStruct
import DpdkPerf.Machine.Run
import DpdkPerf.UdpEcho.Ip6Address
import Mathlib.Data.List.AList

/-! The table from segment handles to segment indices. Its two handlers run
in the thread of the api, and nothing else uses the table. Both warnings of the
unmap handler print the handle, a number, as if it were a string: the process
ends there unless a string can be read at that address. -/
namespace DpdkPerf.UdpEcho

open PackedStruct

def clibByteSwapU64 (x : UInt64) : UInt64 := .ofNat (leValue (leBytes 8 x.toNat).reverse)

def clibNetToHostU64 (x : UInt64) : ByteOrder → UInt64
  | .little => clibByteSwapU64 x
  | .big => x

structure MapAnotherSegmentMsg where
  segmentHandle : UInt64
  segmentSize : UInt32
  segmentName : List UInt8
  deriving DecidableEq, Repr

structure UnmapSegmentMsg where
  segmentHandle : UInt64
  deriving DecidableEq, Repr

/-- What `svm_fifo_segment_attach` returns, and the index of the new segment
when that is zero. -/
structure Attached where
  rv : Int32
  newSegmentIndex : UInt32
  deriving DecidableEq, Repr

inductive SegmentMsg where
  | mapAnotherSegment (mp : MapAnotherSegmentMsg) (attached : Attached)
  | unmapSegment (mp : UnmapSegmentMsg)
  deriving DecidableEq, Repr

inductive SvmCall where
  | attach (segmentName : List UInt8) (segmentSize : UInt32)
  | delete (segmentIndex : UInt32)
  deriving DecidableEq, Repr

/-- Keys and values are words. The program never creates the hash: a null
pointer reads as an empty one, and the first `hash_set` allocates it. -/
abbrev SegmentsTable := AList fun _ : UInt64 => UInt64

def vlApiMapAnotherSegmentHandler (host : ByteOrder) (segmentsTable : SegmentsTable)
    (mp : MapAnotherSegmentMsg) (attached : Attached) : SegmentsTable × List SvmCall :=
  let calls := [.attach mp.segmentName mp.segmentSize]
  if attached.rv ≠ 0 then (segmentsTable, calls)
  else
    (segmentsTable.insert (clibNetToHostU64 mp.segmentHandle host)
      attached.newSegmentIndex.toUInt64, calls)

/-- The handler keeps the pointer `hash_get` returned and reads the index
through it after `hash_unset`, when the cell holds `cell`. Each of its ends is
a warning that prints `segment_handle` with `%s`; `readable` are the arguments
that this can print, and with any other the process ends. -/
def vlApiUnmapSegmentHandler (host : ByteOrder) (readable : UInt64 → Bool)
    (segmentsTable : SegmentsTable) (mp : UnmapSegmentMsg) (cell : UInt64) :
    Option SegmentsTable × List SvmCall :=
  let segmentHandle := clibNetToHostU64 mp.segmentHandle host
  match segmentsTable.lookup segmentHandle with
  | none => (if readable segmentHandle then some segmentsTable else none, [])
  | some _ =>
      (if readable segmentHandle then some (segmentsTable.erase segmentHandle) else none,
        [.delete cell.toUInt32])

/-- The cell of a key that `hash_unset` removed is cleared, or holds the
value of another key. -/
def LeftInCell (segmentsTable : SegmentsTable) (segmentHandle cell : UInt64) : Prop :=
  cell = 0 ∨ ∃ other, other ≠ segmentHandle ∧ segmentsTable.lookup other = some cell

/-- A message and what the cell of its handle holds, should it be removed. -/
structure SegmentDelivery where
  msg : SegmentMsg
  cell : UInt64
  deriving DecidableEq, Repr

def handleSegmentMsg (host : ByteOrder) (readable : UInt64 → Bool)
    (segmentsTable : SegmentsTable) (d : SegmentDelivery) : Option SegmentsTable × List SvmCall :=
  match d.msg with
  | .mapAnotherSegment mp attached =>
      let (segmentsTable, calls) := vlApiMapAnotherSegmentHandler host segmentsTable mp attached
      (some segmentsTable, calls)
  | .unmapSegment mp => vlApiUnmapSegmentHandler host readable segmentsTable mp d.cell

/-- The table while the process lives. Once it has ended nothing is handled. -/
def segments (host : ByteOrder) (readable : UInt64 → Bool) :
    Machine (Option SegmentsTable) SegmentDelivery (List SvmCall) where
  enabled s d :=
    match s, d.msg with
    | some segmentsTable, .unmapSegment mp =>
        LeftInCell segmentsTable (clibNetToHostU64 mp.segmentHandle host) d.cell
    | _, _ => True
  next s d := s.bind fun segmentsTable => (handleSegmentMsg host readable segmentsTable d).1
  output s d := (s.map fun segmentsTable => (handleSegmentMsg host readable segmentsTable d).2).getD []

/-- The index that the latest successful map of a handle recorded, unless an
unmap of the handle came after it. -/
def mappedTo (handle : UInt64) : List SegmentMsg → Option UInt32 :=
  List.foldl (fun known msg =>
    match msg with
    | .mapAnotherSegment mp attached =>
        if mp.segmentHandle = handle ∧ attached.rv = 0 then some attached.newSegmentIndex
        else known
    | .unmapSegment mp => if mp.segmentHandle = handle then none else known) none

/-- The law of the table for one message, given the messages before it. -/
def UnmapsLatest (host : ByteOrder) (readable : UInt64 → Bool) (past : List SegmentMsg)
    (s : Option SegmentsTable) (d : SegmentDelivery) : Prop :=
  match d.msg with
  | .mapAnotherSegment .. => True
  | .unmapSegment mp =>
      ∃ before after, s = some before ∧ (segments host readable).next s d = some after ∧
        match mappedTo mp.segmentHandle past with
        | none => after = before ∧ (segments host readable).output s d = []
        | some index =>
            (segments host readable).output s d = [.delete index] ∧
              ∀ other, other ≠ mp.segmentHandle →
                after.lookup (clibNetToHostU64 other host) =
                  before.lookup (clibNetToHostU64 other host)

def SegmentTableLawful (host : ByteOrder) (readable : UInt64 → Bool)
    (ds : List SegmentDelivery) : Prop :=
  ∀ before d after, ds = before ++ d :: after →
    UnmapsLatest host readable (before.map SegmentDelivery.msg)
      ((segments host readable).run (some ∅) before) d

/-- Every index the table holds when a mapped handle is unmapped is zero. -/
def UnmapsOnlyZero (ms : List SegmentMsg) : Prop :=
  ∀ before mp after, ms = before ++ .unmapSegment mp :: after →
    mappedTo mp.segmentHandle before ≠ none →
      ∀ handle index, mappedTo handle before = some index → index = 0

/-- An unmap of this message can print its handle. -/
def SegmentMsg.Readable (host : ByteOrder) (readable : UInt64 → Bool) : SegmentMsg → Prop
  | .mapAnotherSegment .. => True
  | .unmapSegment mp => readable (clibNetToHostU64 mp.segmentHandle host) = true

/-- Swapping twice gives the number back. -/
theorem clibByteSwapU64_clibByteSwapU64 (x : UInt64) :
    clibByteSwapU64 (clibByteSwapU64 x) = x := by
  have hLength : ((leBytes 8 x.toNat).reverse).length = 8 := by simp
  have hFits : leValue (leBytes 8 x.toNat).reverse < 2 ^ 64 := by
    have hLt := leValue_lt (leBytes 8 x.toNat).reverse
    rw [hLength] at hLt
    exact hLt
  have hBytes : leBytes 8 (clibByteSwapU64 x).toNat = (leBytes 8 x.toNat).reverse := by
    have hBack := leBytes_leValue (leBytes 8 x.toNat).reverse
    rw [hLength] at hBack
    rw [clibByteSwapU64, UInt64.toNat_ofNat_of_lt' hFits, hBack]
  rw [clibByteSwapU64, hBytes, List.reverse_reverse, leValue_leBytes_of_lt x.toNat_lt,
    UInt64.ofNat_toNat]

@[simp] theorem clibNetToHostU64_clibNetToHostU64 (x : UInt64) (host : ByteOrder) :
    clibNetToHostU64 (clibNetToHostU64 x host) host = x := by
  cases host with
  | little => exact clibByteSwapU64_clibByteSwapU64 x
  | big => rfl

/-- Different handles stay different. -/
@[simp] theorem clibNetToHostU64_inj (x y : UInt64) (host : ByteOrder) :
    clibNetToHostU64 x host = clibNetToHostU64 y host ↔ x = y := by
  constructor
  · intro h
    rw [← clibNetToHostU64_clibNetToHostU64 x host, h, clibNetToHostU64_clibNetToHostU64]
  · rintro rfl
    rfl

variable {host : ByteOrder}

/-- The last message decides what a handle is mapped to. -/
theorem mappedTo_append (handle : UInt64) (past : List SegmentMsg) (msg : SegmentMsg) :
    mappedTo handle (past ++ [msg]) =
      match msg with
      | .mapAnotherSegment mp attached =>
          if mp.segmentHandle = handle ∧ attached.rv = 0 then some attached.newSegmentIndex
          else mappedTo handle past
      | .unmapSegment mp => if mp.segmentHandle = handle then none else mappedTo handle past := by
  simp only [mappedTo, List.foldl_append, List.foldl_cons, List.foldl_nil]

section Table

variable {readable : UInt64 → Bool}

/-- A handler that comes to its end leaves a table, and what that holds for a
handle. -/
theorem segments_next (segmentsTable : SegmentsTable) {d : SegmentDelivery}
    (hReadable : d.msg.Readable host readable) :
    ∃ after, (segments host readable).next (some segmentsTable) d = some after ∧
      ∀ handle, after.lookup (clibNetToHostU64 handle host) =
        match d.msg with
        | .mapAnotherSegment mp attached =>
            if mp.segmentHandle = handle ∧ attached.rv = 0 then
              some attached.newSegmentIndex.toUInt64
            else segmentsTable.lookup (clibNetToHostU64 handle host)
        | .unmapSegment mp =>
            if mp.segmentHandle = handle then none
            else segmentsTable.lookup (clibNetToHostU64 handle host) := by
  rcases d with ⟨msg, cell⟩
  cases msg with
  | mapAnotherSegment mp attached =>
      refine ⟨(vlApiMapAnotherSegmentHandler host segmentsTable mp attached).1, rfl,
        fun handle => ?_⟩
      by_cases hRv : attached.rv = 0
      · by_cases hHandle : mp.segmentHandle = handle
        · simp [vlApiMapAnotherSegmentHandler, hRv, hHandle]
        · have hNe : clibNetToHostU64 handle host ≠ clibNetToHostU64 mp.segmentHandle host := by
            simpa using Ne.symm hHandle
          simp [vlApiMapAnotherSegmentHandler, hRv, hHandle, AList.lookup_insert_ne hNe]
      · simp [vlApiMapAnotherSegmentHandler, hRv]
  | unmapSegment mp =>
      have hPrints : readable (clibNetToHostU64 mp.segmentHandle host) = true := hReadable
      cases hLookup : segmentsTable.lookup (clibNetToHostU64 mp.segmentHandle host) with
      | none =>
          refine ⟨segmentsTable, ?_, fun handle => ?_⟩
          · simp [segments, handleSegmentMsg, vlApiUnmapSegmentHandler, hLookup, hPrints]
          · by_cases hHandle : mp.segmentHandle = handle
            · rw [← hHandle, hLookup]
              exact (if_pos rfl).symm
            · exact (if_neg hHandle).symm
      | some index =>
          refine ⟨segmentsTable.erase (clibNetToHostU64 mp.segmentHandle host), ?_,
            fun handle => ?_⟩
          · simp [segments, handleSegmentMsg, vlApiUnmapSegmentHandler, hLookup, hPrints]
          · by_cases hHandle : mp.segmentHandle = handle
            · simp [hHandle]
            · have hNe : clibNetToHostU64 handle host ≠ clibNetToHostU64 mp.segmentHandle host := by
                simpa using Ne.symm hHandle
              simp [hHandle, AList.lookup_erase_ne hNe]

/-- An unmap whose handle cannot be printed ends the process. -/
theorem segments_next_unreadable (s : Option SegmentsTable) {mp : UnmapSegmentMsg} (cell : UInt64)
    (hUnreadable : ¬ readable (clibNetToHostU64 mp.segmentHandle host) = true) :
    (segments host readable).next s ⟨.unmapSegment mp, cell⟩ = none := by
  cases s with
  | none => rfl
  | some segmentsTable =>
      cases hLookup : segmentsTable.lookup (clibNetToHostU64 mp.segmentHandle host) with
      | none => simp [segments, handleSegmentMsg, vlApiUnmapSegmentHandler, hLookup, hUnreadable]
      | some index => simp [segments, handleSegmentMsg, vlApiUnmapSegmentHandler, hLookup, hUnreadable]

/-- The process lives and the table records the latest successful map of every
handle. -/
def Records (host : ByteOrder) (past : List SegmentMsg) (s : Option SegmentsTable) : Prop :=
  ∃ segmentsTable, s = some segmentsTable ∧
    ∀ handle, segmentsTable.lookup (clibNetToHostU64 handle host) =
      (mappedTo handle past).map UInt32.toUInt64

/-- A handler that comes to its end keeps the table right. -/
theorem Records.next {past : List SegmentMsg} {s : Option SegmentsTable}
    (h : Records host past s) {d : SegmentDelivery} (hReadable : d.msg.Readable host readable) :
    Records host (past ++ [d.msg]) ((segments host readable).next s d) := by
  obtain ⟨segmentsTable, rfl, hLookup⟩ := h
  obtain ⟨after, hNext, hAfter⟩ := segments_next segmentsTable hReadable
  refine ⟨after, hNext, fun handle => ?_⟩
  rw [hAfter, mappedTo_append, hLookup handle]
  cases d.msg with
  | mapAnotherSegment mp attached =>
      by_cases hHere : mp.segmentHandle = handle ∧ attached.rv = 0
      · simp [hHere]
      · simp [if_neg hHere]
  | unmapSegment mp =>
      by_cases hHere : mp.segmentHandle = handle
      · simp [hHere]
      · simp [hHere]

/-- As long as every handle can be printed, the table is kept right. -/
theorem records_run {ds : List SegmentDelivery}
    (hReadable : ∀ d ∈ ds, d.msg.Readable host readable) :
    Records host (ds.map SegmentDelivery.msg) ((segments host readable).run (some ∅) ds) := by
  have hMeets : (segments host readable).Meets (fun _ d => d.msg.Readable host readable)
      (some ∅) ds := Machine.meets_of_inputs hReadable _
  apply hMeets.invariant_inputs fun past => Records host (past.map SegmentDelivery.msg)
  · intro past s d hHere hRecords
    rw [List.map_append, List.map_singleton]
    exact hRecords.next hHere
  · exact ⟨∅, rfl, fun handle => rfl⟩

/-- Whatever the table holds, some handle was mapped to it. -/
theorem Records.lookup_eq_some {past : List SegmentMsg} {segmentsTable : SegmentsTable}
    (h : Records host past (some segmentsTable)) {key cell : UInt64}
    (hLookup : segmentsTable.lookup key = some cell) :
    ∃ handle index, key = clibNetToHostU64 handle host ∧ mappedTo handle past = some index ∧
      cell = index.toUInt64 := by
  obtain ⟨_, hSame, hRecorded⟩ := h
  obtain rfl := Option.some.inj hSame
  have hKey := hRecorded (clibNetToHostU64 key host)
  rw [clibNetToHostU64_clibNetToHostU64, hLookup] at hKey
  obtain ⟨index, hIndex, hCell⟩ := Option.map_eq_some_iff.mp hKey.symm
  exact ⟨clibNetToHostU64 key host, index, by simp, hIndex, hCell.symm⟩

/-- An unmap is lawful if and only if its handle can be printed and, where it
is mapped, the stale cell still shows the index of the handle. -/
theorem Records.unmapsLatest_iff {past : List SegmentMsg} {s : Option SegmentsTable}
    (h : Records host past s) (mp : UnmapSegmentMsg) (cell : UInt64) :
    UnmapsLatest host readable past s ⟨.unmapSegment mp, cell⟩ ↔
      readable (clibNetToHostU64 mp.segmentHandle host) = true ∧
        ∀ index, mappedTo mp.segmentHandle past = some index → cell.toUInt32 = index := by
  obtain ⟨segmentsTable, rfl, hRecorded⟩ := h
  by_cases hReadable : readable (clibNetToHostU64 mp.segmentHandle host) = true
  case neg =>
    refine iff_of_false ?_ fun hBoth => hReadable hBoth.1
    rintro ⟨before, after, -, hNext, -⟩
    rw [segments_next_unreadable _ cell hReadable] at hNext
    cases hNext
  rw [and_iff_right hReadable]
  have hLegible : (SegmentMsg.unmapSegment mp).Readable host readable := hReadable
  obtain ⟨after, hNext, hAfter⟩ :=
    segments_next (d := ⟨.unmapSegment mp, cell⟩) segmentsTable hLegible
  have hLookup := hRecorded mp.segmentHandle
  cases hMapped : mappedTo mp.segmentHandle past with
  | none =>
      rw [hMapped] at hLookup
      refine iff_of_true ⟨segmentsTable, segmentsTable, rfl, ?_⟩ nofun
      simp [hMapped, segments, handleSegmentMsg, vlApiUnmapSegmentHandler, hLookup, hReadable]
  | some index =>
      rw [hMapped] at hLookup
      have hOutput : (segments host readable).output (some segmentsTable)
          ⟨.unmapSegment mp, cell⟩ = [.delete cell.toUInt32] := by
        simp [segments, handleSegmentMsg, vlApiUnmapSegmentHandler, hLookup]
      simp only [UnmapsLatest, hMapped, hOutput]
      constructor
      · rintro ⟨-, -, -, -, hDelete, -⟩ index' hIndex
        simpa [← Option.some.inj hIndex] using hDelete
      · intro hCell
        refine ⟨segmentsTable, after, rfl, hNext, by rw [hCell index rfl], fun other hOther => ?_⟩
        rw [hAfter]
        exact if_neg hOther.symm

/-- In a lawful run every handle that is unmapped can be printed. -/
theorem readable_of_lawful {ds : List SegmentDelivery}
    (h : SegmentTableLawful host readable ds) : ∀ d ∈ ds, d.msg.Readable host readable := by
  induction ds using List.reverseRecOn with
  | nil => exact fun d hMem => absurd hMem List.not_mem_nil
  | append_singleton past d ih =>
      have hPast : SegmentTableLawful host readable past := by
        rintro before d' after rfl
        exact h before d' (after ++ [d]) (by simp)
      have hReadable := ih hPast
      refine List.forall_mem_append.mpr ⟨hReadable, List.forall_mem_singleton.mpr ?_⟩
      have hHere := h past d [] rfl
      rcases d with ⟨msg, cell⟩
      cases msg with
      | mapAnotherSegment mp attached => trivial
      | unmapSegment mp => exact ((records_run hReadable).unmapsLatest_iff mp cell |>.mp hHere).1

/-- A run whose stale cells are all cleared but one. -/
def stale (before : List SegmentMsg) (d : SegmentDelivery) (after : List SegmentMsg) :
    List SegmentDelivery :=
  before.map (⟨·, 0⟩) ++ d :: after.map (⟨·, 0⟩)

/-- The hash may clear every cell. -/
theorem admits_cleared (s : Option SegmentsTable) (ms : List SegmentMsg) :
    (segments host readable).Admits s (ms.map (⟨·, 0⟩)) := by
  induction ms generalizing s with
  | nil => simp
  | cons msg rest ih =>
      have hHere : (segments host readable).enabled s ⟨msg, 0⟩ := by
        cases s with
        | none => trivial
        | some segmentsTable =>
            cases msg with
            | mapAnotherSegment mp attached => trivial
            | unmapSegment mp => exact Or.inl rfl
      exact (Machine.admits_cons ..).mpr ⟨hHere, ih _⟩

@[simp] theorem map_msg_cleared (ms : List SegmentMsg) :
    (ms.map fun msg => (⟨msg, 0⟩ : SegmentDelivery)).map SegmentDelivery.msg = ms := by
  simp [Function.comp_def]

variable {ms : List SegmentMsg}

/-- Every run of these messages is lawful. -/
def AlwaysLawful (host : ByteOrder) (readable : UInt64 → Bool) (ms : List SegmentMsg) : Prop :=
  ∀ ds, ds.map SegmentDelivery.msg = ms → (segments host readable).Admits (some ∅) ds →
    SegmentTableLawful host readable ds

/-- Lawful messages have handles that can be printed: otherwise a run with
cleared cells ends the process. -/
theorem AlwaysLawful.prints (h : AlwaysLawful host readable ms) :
    ∀ msg ∈ ms, msg.Readable host readable := by
  intro msg hMem
  have hCleared := h _ (map_msg_cleared ms) (admits_cleared (some ∅) ms)
  exact readable_of_lawful hCleared ⟨msg, 0⟩ (List.mem_map_of_mem hMem)

theorem records_cleared (hReadable : ∀ msg ∈ ms, msg.Readable host readable) :
    Records host ms ((segments host readable).run (some ∅) (ms.map (⟨·, 0⟩))) := by
  have hRecords := @records_run host readable (ms.map (⟨·, 0⟩)) (by simpa using hReadable)
  rwa [map_msg_cleared] at hRecords

/-- For lawful messages every content that the removed cell may have is the
index mapped. -/
theorem AlwaysLawful.cell {before after : List SegmentMsg} {mp : UnmapSegmentMsg}
    {index : UInt32} {cell : UInt64} {segmentsTable : SegmentsTable}
    (h : AlwaysLawful host readable (before ++ .unmapSegment mp :: after))
    (hMapped : mappedTo mp.segmentHandle before = some index)
    (hTable : (segments host readable).run (some ∅) (before.map (⟨·, 0⟩)) = some segmentsTable)
    (hCell : LeftInCell segmentsTable (clibNetToHostU64 mp.segmentHandle host) cell) :
    cell.toUInt32 = index := by
  have hRecords := records_cleared fun msg hMem => h.prints msg (List.mem_append_left _ hMem)
  have hLawful : SegmentTableLawful host readable (stale before ⟨.unmapSegment mp, cell⟩ after) := by
    apply h
    · rw [stale, List.map_append, List.map_cons, map_msg_cleared, map_msg_cleared]
    · rw [stale, Machine.admits_append, Machine.admits_cons, hTable]
      exact ⟨admits_cleared _ _, hCell, admits_cleared _ _⟩
  have hHere := hLawful _ _ _ rfl
  rw [map_msg_cleared, hRecords.unmapsLatest_iff] at hHere
  exact hHere.2 index hMapped

/-- Whatever `hash_unset` leaves in the cells, an unmap deletes the segment of
the latest successful map, and nothing else changes: this holds of a sequence
of messages if and only if the handle of every unmap can be printed as a string
and all indices in the table are zero whenever a mapped handle is unmapped. -/
theorem segmentTable_lawful_iff (host : ByteOrder) (readable : UInt64 → Bool)
    (ms : List SegmentMsg) :
    AlwaysLawful host readable ms ↔
      (∀ msg ∈ ms, msg.Readable host readable) ∧ UnmapsOnlyZero ms := by
  constructor
  · intro h
    refine ⟨h.prints, ?_⟩
    rintro before mp after rfl hNotNone handle index hIndex
    obtain ⟨own, hOwn⟩ := Option.ne_none_iff_exists'.mp hNotNone
    obtain ⟨segmentsTable, hTable, hRecorded⟩ :=
      records_cleared fun msg hMem => h.prints msg (List.mem_append_left _ hMem)
    -- the cleared cell shows that the index of the handle itself is zero
    have hZero : (0 : UInt64).toUInt32 = own := h.cell hOwn hTable (Or.inl rfl)
    by_cases hHandle : handle = mp.segmentHandle
    · rw [hHandle, hOwn] at hIndex
      rw [← Option.some.inj hIndex, ← hZero]
      rfl
    · have hOther : index.toUInt64.toUInt32 = own := by
        apply h.cell hOwn hTable
        refine Or.inr ⟨clibNetToHostU64 handle host, by simpa using hHandle, ?_⟩
        rw [hRecorded handle, hIndex, Option.map_some]
      rw [UInt32.toUInt32_toUInt64] at hOther
      rw [hOther, ← hZero]
      rfl
  · rintro ⟨hReadable, hOnly⟩ ds rfl hAdmits before d after rfl
    obtain ⟨msg, cell⟩ := d
    have hDeliveries : ∀ d ∈ before ++ ⟨msg, cell⟩ :: after, d.msg.Readable host readable :=
      fun d hMem => hReadable _ (List.mem_map_of_mem hMem)
    cases msg with
    | mapAnotherSegment mp attached => trivial
    | unmapSegment mp =>
        have hRecords := records_run fun d hMem => hDeliveries d (List.mem_append_left _ hMem)
        rw [Machine.admits_append, Machine.admits_cons] at hAdmits
        rw [hRecords.unmapsLatest_iff]
        refine ⟨hDeliveries ⟨.unmapSegment mp, cell⟩ (by simp), fun index hIndex => ?_⟩
        have hZero : ∀ handle index, mappedTo handle (before.map SegmentDelivery.msg) = some index →
            index = 0 :=
          hOnly _ mp (after.map SegmentDelivery.msg) (by simp) (by simp [hIndex])
        rw [hZero _ index hIndex]
        have hCell := hAdmits.2.1
        obtain ⟨segmentsTable, hTable, hRecorded⟩ := hRecords
        rw [hTable] at hCell
        rcases hCell with hCleared | ⟨other, -, hLookup⟩
        · rw [show cell = 0 from hCleared]
          rfl
        · obtain ⟨handle, index', -, hIndex', hHeld⟩ :=
            Records.lookup_eq_some ⟨segmentsTable, rfl, hRecorded⟩ hLookup
          rw [show cell = index'.toUInt64 from hHeld, hZero handle index' hIndex']
          rfl

/-- One segment, mapped with index 1 beside the one of the attach reply, and
unmapped: the cleared cell reads as index 0, even if the handle is printed. -/
theorem not_segmentTable_lawful :
    ¬ AlwaysLawful .little (fun _ => true)
      [.mapAnotherSegment ⟨7, 4096, [0x73]⟩ ⟨0, 1⟩, .unmapSegment ⟨7⟩] := by
  intro h
  have hMapped : mappedTo 7 [.mapAnotherSegment ⟨7, 4096, [0x73]⟩ ⟨0, 1⟩] = some 1 := rfl
  have hCell : UInt64.toUInt32 0 = 1 := AlwaysLawful.cell h hMapped rfl (Or.inl rfl)
  exact absurd hCell (by decide)

end Table

end DpdkPerf.UdpEcho
