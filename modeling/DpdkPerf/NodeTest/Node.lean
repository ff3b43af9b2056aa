import DpdkPerf.Machine.Cells
import DpdkPerf.Machine.Unrolled

/-! The graph node of node-test. It gives every buffer of a frame its next
node, which is always the first one, and traces the buffers that are marked. -/
namespace DpdkPerf.NodeTest

/-- What the node reads of a buffer. -/
structure VlibBuffer where
  flags : UInt32
  /-- `sw_if_index[VLIB_RX]`. -/
  rxSwIfIndex : UInt32
  deriving DecidableEq, Repr

/-- The buffers as the call finds them, by index and by pointer, and the flag
`VLIB_BUFFER_IS_TRACED`. -/
structure VlibMain (Ptr : Type) where
  getBuffer : UInt32 → Ptr
  buffer : Ptr → VlibBuffer
  isTraced : UInt32

structure QsTrace (Ptr : Type) where
  buffer : Ptr
  nextIndex : UInt16
  swIfIndex : UInt32
  deriving DecidableEq, Repr

/-- The cursors `b` and `next`, as places in `bufs` and `nexts`, and what has
been done. `used` are the places of `bufs` whose pointers have been used. -/
structure QsRun (size : Nat) (Ptr : Type) where
  b : Nat
  next : Nat
  nexts : Cells size UInt16
  traces : List (QsTrace Ptr)
  used : List Nat

variable {Ptr : Type} {size : Nat}

namespace QsRun

variable (vm : VlibMain Ptr) (bufs : Cells size Ptr) (isTrace : Bool) (s : QsRun size Ptr)

/-- `b[k]`. -/
def ptr (k : Nat) : Option (Ptr × QsRun size Ptr) :=
  (bufs.read (s.b + k)).map fun ptr => (ptr, { s with used := s.used ++ [s.b + k] })

/-- A prefetch of `b[k]`. -/
def prefetch (k : Nat) : Option (QsRun size Ptr) := (s.ptr bufs k).map Prod.snd

/-- `next[k] = 0`. -/
def setNext (k : Nat) : Option (QsRun size Ptr) :=
  (s.nexts.write (s.next + k) 0).map fun nexts => { s with nexts := nexts }

/-- The trace of `b[k]`, if it is marked. -/
def trace (k : Nat) : Option (QsRun size Ptr) := do
  let (b, s) ← s.ptr bufs k
  if (vm.buffer b).flags &&& vm.isTraced ≠ 0 then
    let (t, s) ← s.ptr bufs k
    let nextIndex ← s.nexts.read (s.next + k)
    let (b, s) ← s.ptr bufs k
    some { s with traces := s.traces ++ [⟨t, nextIndex, (vm.buffer b).rxSwIfIndex⟩] }
  else some s

def advance (n : Nat) : QsRun size Ptr := { s with b := s.b + n, next := s.next + n }

/-- The headers and then the data of the buffers of the next round. -/
def prefetchNext : Option (QsRun size Ptr) := do
  let s ← s.prefetch bufs 4
  let s ← s.prefetch bufs 5
  let s ← s.prefetch bufs 6
  let s ← s.prefetch bufs 7
  let s ← s.prefetch bufs 4
  let s ← s.prefetch bufs 5
  let s ← s.prefetch bufs 6
  s.prefetch bufs 7

def traceFour : Option (QsRun size Ptr) := do
  let s ← s.trace vm bufs 0
  let s ← s.trace vm bufs 1
  let s ← s.trace vm bufs 2
  s.trace vm bufs 3

/-- The body of the first loop. -/
def four (nLeftFrom : Nat) (s : QsRun size Ptr) : Option (QsRun size Ptr) := do
  let s ← (if 8 ≤ nLeftFrom then s.prefetchNext bufs else some s)
  let s ← s.setNext 0
  let s ← s.setNext 1
  let s ← s.setNext 2
  let s ← s.setNext 3
  let s ← (if isTrace then s.traceFour vm bufs else some s)
  some (s.advance 4)

/-- The body of the second loop. -/
def one : Option (QsRun size Ptr) := do
  let s ← s.setNext 0
  let s ← (if isTrace then s.trace vm bufs 0 else some s)
  some (s.advance 1)

end QsRun

/-- `vlib_get_buffers` into an array of `size` pointers. -/
def vlibGetBuffers (size : Nat) (vm : VlibMain Ptr) (vectorArgs : List UInt32) :
    Option (Cells size Ptr) :=
  if vectorArgs.length ≤ size then some (.ofList (vectorArgs.map vm.getBuffer)) else none

/-- `vlib_buffer_enqueue_to_next`: each buffer goes to its next node. -/
def vlibBufferEnqueueToNext (nexts : Cells size UInt16) :
    Nat → List UInt32 → Option (List (UInt32 × UInt16))
  | _, [] => some []
  | i, bi :: rest => do
      let next ← nexts.read i
      let enqueued ← vlibBufferEnqueueToNext nexts (i + 1) rest
      some ((bi, next) :: enqueued)

/-- What a call has done when it returns. -/
structure QsResult (size : Nat) (Ptr : Type) where
  nexts : Cells size UInt16
  traces : List (QsTrace Ptr)
  used : List Nat
  enqueued : List (UInt32 × UInt16)
  returned : Nat

/-- The function around the loops over the buffers. -/
def aaaQsWith (loops : Cells size Ptr → Nat → QsRun size Ptr → Option (QsRun size Ptr))
    (vm : VlibMain Ptr) (vectorArgs : List UInt32) : Option (QsResult size Ptr) := do
  let bufs ← vlibGetBuffers size vm vectorArgs
  let s ← loops bufs vectorArgs.length ⟨0, 0, ⟨fun _ => none⟩, [], []⟩
  let enqueued ← vlibBufferEnqueueToNext s.nexts 0 vectorArgs
  some ⟨s.nexts, s.traces, s.used, enqueued, vectorArgs.length⟩

/-- `aaa_qs_inline` on a frame with the buffer indices `vectorArgs`. `size` is
`VLIB_FRAME_SIZE`. -/
def aaaQsInline (size : Nat) (vm : VlibMain Ptr) (isTrace : Bool) (vectorArgs : List UInt32) :
    Option (QsResult size Ptr) :=
  aaaQsWith (fun bufs => unrolled (QsRun.four vm bufs isTrace) (QsRun.one vm bufs isTrace)) vm vectorArgs

/-- One pass over the buffers in order. -/
def onePass (size : Nat) (vm : VlibMain Ptr) (isTrace : Bool) (vectorArgs : List UInt32) :
    Option (QsResult size Ptr) :=
  aaaQsWith (fun bufs => singles (QsRun.one vm bufs isTrace)) vm vectorArgs

/-- The records of the buffers that are marked. -/
def qsTraces (vm : VlibMain Ptr) (isTrace : Bool) (vectorArgs : List UInt32) : List (QsTrace Ptr) :=
  vectorArgs.filterMap fun bi =>
    let b := vm.getBuffer bi
    if isTrace ∧ (vm.buffer b).flags &&& vm.isTraced ≠ 0 then
      some ⟨b, 0, (vm.buffer b).rxSwIfIndex⟩
    else none

/-- The run stands in front of the buffer `i`, with so many entries of `nexts`
set and so many buffers traced, and has stayed within the frame. -/
structure QsRun.At (vm : VlibMain Ptr) (isTrace : Bool) (vectorArgs : List UInt32) (i set traced : Nat)
    (s : QsRun size Ptr) : Prop where
  b : s.b = i
  next : s.next = i
  nexts : ∀ k, s.nexts.read k = if k < set then some 0 else none
  traces : s.traces = qsTraces vm isTrace (vectorArgs.take traced)
  used : ∀ j ∈ s.used, j < vectorArgs.length

section Rounds

variable {vm : VlibMain Ptr} {isTrace : Bool} {vectorArgs : List UInt32} {bufs : Cells size Ptr}
  {s : QsRun size Ptr} {i set traced k : Nat}

/-- The records of one more buffer come behind those so far. -/
theorem qsTraces_take_succ (h : traced < vectorArgs.length) :
    qsTraces vm isTrace (vectorArgs.take (traced + 1)) =
      qsTraces vm isTrace (vectorArgs.take traced) ++
        qsTraces vm isTrace [vectorArgs.get ⟨traced, h⟩] := by
  unfold qsTraces
  rw [← List.filterMap_append, List.take_add_one, List.getElem?_eq_getElem h]
  rfl

/-- A buffer has a record if it is marked. -/
theorem qsTraces_singleton (vm : VlibMain Ptr) (bi : UInt32) :
    qsTraces vm true [bi] =
      if (vm.buffer (vm.getBuffer bi)).flags &&& vm.isTraced ≠ 0 then
        [⟨vm.getBuffer bi, 0, (vm.buffer (vm.getBuffer bi)).rxSwIfIndex⟩]
      else [] := by
  by_cases hMarked : (vm.buffer (vm.getBuffer bi)).flags &&& vm.isTraced ≠ 0
  · simp [qsTraces, hMarked]
  · simp [qsTraces, hMarked]

/-- Without tracing there are no records. -/
theorem qsTraces_of_not_trace (vm : VlibMain Ptr) (vectorArgs : List UInt32) :
    qsTraces vm false vectorArgs = [] := by
  unfold qsTraces
  rw [List.filterMap_eq_nil_iff]
  intro bi _
  simp

/-- The place of the frame that `b[k]` is. -/
theorem QsRun.At.ptr (h : s.At vm isTrace vectorArgs i set traced)
    (hBufs : ∀ j, bufs.read j = (vectorArgs.map vm.getBuffer)[j]?) (hk : i + k < vectorArgs.length) :
    ∃ s', s.ptr bufs k = some (vm.getBuffer (vectorArgs.get ⟨i + k, hk⟩), s') ∧
      s'.At vm isTrace vectorArgs i set traced := by
  have hRead : bufs.read (s.b + k) = some (vm.getBuffer (vectorArgs.get ⟨i + k, hk⟩)) := by
    rw [hBufs, h.b, List.getElem?_map, List.getElem?_eq_getElem hk]
    rfl
  refine ⟨{ s with used := s.used ++ [s.b + k] }, by rw [QsRun.ptr, hRead]; rfl,
    h.b, h.next, h.nexts, h.traces, ?_⟩
  rw [List.forall_mem_append, List.forall_mem_singleton, h.b]
  exact ⟨h.used, hk⟩

/-- A prefetch within the frame changes nothing but the use of a pointer. -/
theorem QsRun.At.prefetch (h : s.At vm isTrace vectorArgs i set traced)
    (hBufs : ∀ j, bufs.read j = (vectorArgs.map vm.getBuffer)[j]?) (hk : i + k < vectorArgs.length) :
    ∃ s', s.prefetch bufs k = some s' ∧ s'.At vm isTrace vectorArgs i set traced := by
  obtain ⟨s', hPtr, hAt⟩ := h.ptr hBufs hk
  exact ⟨s', by rw [QsRun.prefetch, hPtr]; rfl, hAt⟩

/-- The entries of `nexts` are set one after the other. -/
theorem QsRun.At.setNext (h : s.At vm isTrace vectorArgs i (i + k) traced) (hk : i + k < size) :
    ∃ s', s.setNext k = some s' ∧ s'.At vm isTrace vectorArgs i (i + (k + 1)) traced := by
  obtain ⟨nexts, hWrite, hRead⟩ := s.nexts.write_spec hk 0
  refine ⟨{ s with nexts := nexts }, by rw [QsRun.setNext, h.next, hWrite]; rfl,
    h.b, h.next, fun j => ?_, h.traces, h.used⟩
  show nexts.read j = _
  rw [hRead, h.nexts]
  by_cases hj : j = i + k
  · rw [if_pos hj, if_pos (by omega)]
  · rw [if_neg hj]
    have hIff : j < i + k ↔ j < i + (k + 1) := by omega
    simp only [hIff]

/-- The next buffer is traced, whose entry has been set. -/
theorem QsRun.At.trace (h : s.At vm true vectorArgs i set (i + k))
    (hBufs : ∀ j, bufs.read j = (vectorArgs.map vm.getBuffer)[j]?) (hk : i + k < vectorArgs.length)
    (hSet : i + k < set) :
    ∃ s', s.trace vm bufs k = some s' ∧ s'.At vm true vectorArgs i set (i + (k + 1)) := by
  obtain ⟨s₁, hFlags, h₁⟩ := h.ptr hBufs hk
  obtain ⟨s₂, hTraced, h₂⟩ := h₁.ptr hBufs hk
  obtain ⟨s₃, hIndex, h₃⟩ := h₂.ptr hBufs hk
  have hNext : s₂.nexts.read (s₂.next + k) = some 0 := by
    rw [h₂.next, h₂.nexts, if_pos hSet]
  have hMore : qsTraces vm true (vectorArgs.take (i + (k + 1))) =
      qsTraces vm true (vectorArgs.take (i + k)) ++
        qsTraces vm true [vectorArgs.get ⟨i + k, hk⟩] := qsTraces_take_succ hk
  rw [qsTraces_singleton] at hMore
  generalize vm.getBuffer (vectorArgs.get ⟨i + k, hk⟩) = b at *
  by_cases hMarked : (vm.buffer b).flags &&& vm.isTraced ≠ 0
  · rw [if_pos hMarked] at hMore
    refine ⟨{ s₃ with traces := s₃.traces ++ [⟨b, 0, (vm.buffer b).rxSwIfIndex⟩] }, ?_,
      h₃.b, h₃.next, h₃.nexts, ?_, h₃.used⟩
    · simp only [QsRun.trace, hFlags, hTraced, hIndex, hNext, Option.bind_eq_bind, Option.bind_some]
      exact if_pos hMarked
    · rw [hMore, ← h₃.traces]
  · rw [if_neg hMarked, List.append_nil] at hMore
    refine ⟨s₁, ?_, h₁.b, h₁.next, h₁.nexts, ?_, h₁.used⟩
    · simp only [QsRun.trace, hFlags, Option.bind_eq_bind, Option.bind_some]
      exact if_neg hMarked
    · rw [hMore, ← h₁.traces]

/-- The cursors move past buffers that are done with. -/
theorem QsRun.At.advance {n : Nat} (h : s.At vm isTrace vectorArgs i (i + n) (i + n)) :
    (s.advance n).At vm isTrace vectorArgs (i + n) (i + n) (i + n) where
  b := congrArg (· + n) h.b
  next := congrArg (· + n) h.next
  nexts := h.nexts
  traces := h.traces
  used := h.used

/-- Without tracing it makes no difference how many buffers are traced. -/
theorem QsRun.At.of_not_trace (h : s.At vm false vectorArgs i set traced) (traced' : Nat) :
    s.At vm false vectorArgs i set traced' where
  b := h.b
  next := h.next
  nexts := h.nexts
  traces := by rw [h.traces, qsTraces_of_not_trace, qsTraces_of_not_trace]
  used := h.used

/-- With eight buffers left the prefetches of the next round are in the frame.
-/
theorem QsRun.At.prefetchNext (h : s.At vm isTrace vectorArgs i set traced)
    (hBufs : ∀ j, bufs.read j = (vectorArgs.map vm.getBuffer)[j]?)
    (hEight : i + 8 ≤ vectorArgs.length) :
    ∃ s', s.prefetchNext bufs = some s' ∧ s'.At vm isTrace vectorArgs i set traced := by
  obtain ⟨s₁, hHeader4, h₁⟩ := h.prefetch hBufs (show i + 4 < vectorArgs.length by omega)
  obtain ⟨s₂, hHeader5, h₂⟩ := h₁.prefetch hBufs (show i + 5 < vectorArgs.length by omega)
  obtain ⟨s₃, hHeader6, h₃⟩ := h₂.prefetch hBufs (show i + 6 < vectorArgs.length by omega)
  obtain ⟨s₄, hHeader7, h₄⟩ := h₃.prefetch hBufs (show i + 7 < vectorArgs.length by omega)
  obtain ⟨s₅, hData4, h₅⟩ := h₄.prefetch hBufs (show i + 4 < vectorArgs.length by omega)
  obtain ⟨s₆, hData5, h₆⟩ := h₅.prefetch hBufs (show i + 5 < vectorArgs.length by omega)
  obtain ⟨s₇, hData6, h₇⟩ := h₆.prefetch hBufs (show i + 6 < vectorArgs.length by omega)
  obtain ⟨s₈, hData7, h₈⟩ := h₇.prefetch hBufs (show i + 7 < vectorArgs.length by omega)
  refine ⟨s₈, ?_, h₈⟩
  simp only [QsRun.prefetchNext, hHeader4, hHeader5, hHeader6, hHeader7, hData4, hData5, hData6,
    hData7, Option.bind_eq_bind, Option.bind_some]

/-- The four of a round are traced in order. -/
theorem QsRun.At.traceFour (h : s.At vm true vectorArgs i (i + 4) (i + 0))
    (hBufs : ∀ j, bufs.read j = (vectorArgs.map vm.getBuffer)[j]?)
    (hFour : i + 4 ≤ vectorArgs.length) :
    ∃ s', s.traceFour vm bufs = some s' ∧ s'.At vm true vectorArgs i (i + 4) (i + 4) := by
  obtain ⟨s₁, hTrace0, h₁⟩ := h.trace hBufs (by omega) (by omega)
  obtain ⟨s₂, hTrace1, h₂⟩ := h₁.trace hBufs (by omega) (by omega)
  obtain ⟨s₃, hTrace2, h₃⟩ := h₂.trace hBufs (by omega) (by omega)
  obtain ⟨s₄, hTrace3, h₄⟩ := h₃.trace hBufs (by omega) (by omega)
  refine ⟨s₄, ?_, h₄⟩
  simp only [QsRun.traceFour, hTrace0, hTrace1, hTrace2, hTrace3, Option.bind_eq_bind,
    Option.bind_some]

/-- A round of the first loop moves all three cursors on by four buffers. -/
theorem QsRun.At.four (h : s.At vm isTrace vectorArgs i i i) {n : Nat}
    (hBufs : ∀ j, bufs.read j = (vectorArgs.map vm.getBuffer)[j]?)
    (hLeft : i + (n + 4) = vectorArgs.length) (hFits : vectorArgs.length ≤ size) :
    ∃ s', s.four vm bufs isTrace (n + 4) = some s' ∧
      s'.At vm isTrace vectorArgs (i + 4) (i + 4) (i + 4) := by
  have hPrefetched : ∃ s', (if 8 ≤ n + 4 then s.prefetchNext bufs else some s) = some s' ∧
      s'.At vm isTrace vectorArgs i (i + 0) i := by
    by_cases hEight : 8 ≤ n + 4
    · rw [if_pos hEight]
      exact h.prefetchNext hBufs (by omega)
    · rw [if_neg hEight]
      exact ⟨s, rfl, h⟩
  obtain ⟨s₁, hPrefetch, h₁⟩ := hPrefetched
  obtain ⟨s₂, hSet0, h₂⟩ := h₁.setNext (by omega)
  obtain ⟨s₃, hSet1, h₃⟩ := h₂.setNext (by omega)
  obtain ⟨s₄, hSet2, h₄⟩ := h₃.setNext (by omega)
  obtain ⟨s₅, hSet3, h₅⟩ := h₄.setNext (by omega)
  have hTraced : ∃ s', (if isTrace then s₅.traceFour vm bufs else some s₅) = some s' ∧
      s'.At vm isTrace vectorArgs i (i + 4) (i + 4) := by
    cases isTrace with
    | true => exact h₅.traceFour hBufs (by omega)
    | false => exact ⟨s₅, rfl, h₅.of_not_trace _⟩
  obtain ⟨s₆, hTrace, h₆⟩ := hTraced
  refine ⟨s₆.advance 4, ?_, h₆.advance⟩
  simp only [QsRun.four, hPrefetch, hSet0, hSet1, hSet2, hSet3, hTrace, Option.bind_eq_bind,
    Option.bind_some]

/-- A round of the second loop does one buffer. -/
theorem QsRun.At.one (h : s.At vm isTrace vectorArgs i i i) {n : Nat}
    (hBufs : ∀ j, bufs.read j = (vectorArgs.map vm.getBuffer)[j]?)
    (hLeft : i + (n + 1) = vectorArgs.length) (hFits : vectorArgs.length ≤ size) :
    ∃ s', s.one vm bufs isTrace = some s' ∧
      s'.At vm isTrace vectorArgs (i + 1) (i + 1) (i + 1) := by
  obtain ⟨s₁, hSet0, h₁⟩ := QsRun.At.setNext (k := 0) h (by omega)
  have hTraced : ∃ s', (if isTrace then s₁.trace vm bufs 0 else some s₁) = some s' ∧
      s'.At vm isTrace vectorArgs i (i + 1) (i + 1) := by
    cases isTrace with
    | true => exact QsRun.At.trace (k := 0) h₁ hBufs (by omega) (by omega)
    | false => exact ⟨s₁, rfl, h₁.of_not_trace _⟩
  obtain ⟨s₂, hTrace, h₂⟩ := hTraced
  refine ⟨s₂.advance 1, ?_, h₂.advance⟩
  simp only [QsRun.one, hSet0, hTrace, Option.bind_eq_bind, Option.bind_some]

end Rounds

/-- Every buffer of the frame has the first node for its next one and is
enqueued once, in order, the marked ones are traced in order, and only the
pointers of the frame have been used. -/
structure QsResult.Done (vm : VlibMain Ptr) (isTrace : Bool) (vectorArgs : List UInt32)
    (o : QsResult size Ptr) : Prop where
  nexts : ∀ k, o.nexts.read k = if k < vectorArgs.length then some 0 else none
  traces : o.traces = qsTraces vm isTrace vectorArgs
  enqueued : o.enqueued = vectorArgs.map (·, 0)
  used : ∀ j ∈ o.used, j < vectorArgs.length
  returned : o.returned = vectorArgs.length

section Calls

variable {vm : VlibMain Ptr} {isTrace : Bool} {vectorArgs : List UInt32}

/-- All buffers go to the first next node. -/
theorem enqueueToNext_eq {nexts : Cells size UInt16} {i : Nat} (rest : List UInt32)
    (hNexts : ∀ k, k < i + rest.length → nexts.read k = some 0) :
    vlibBufferEnqueueToNext nexts i rest = some (rest.map (·, 0)) := by
  induction rest generalizing i with
  | nil => rfl
  | cons bi rest ih =>
      rw [List.length_cons] at hNexts
      have hRest : vlibBufferEnqueueToNext nexts (i + 1) rest = some (rest.map (·, 0)) :=
        ih fun k hk => hNexts k (by omega)
      simp only [vlibBufferEnqueueToNext, hNexts i (by omega), hRest, Option.bind_eq_bind,
        Option.bind_some, List.map_cons]

theorem at_start : (⟨0, 0, ⟨fun _ => none⟩, [], []⟩ : QsRun size Ptr).At vm isTrace vectorArgs 0 0 0
    where
  b := rfl
  next := rfl
  nexts k := by simp [Cells.read]
  traces := rfl
  used _ hMem := absurd hMem List.not_mem_nil

/-- All buffers but the last `n` are done. -/
def QsRun.Left (vm : VlibMain Ptr) (isTrace : Bool) (vectorArgs : List UInt32) (n : Nat)
    (s : QsRun size Ptr) : Prop :=
  ∃ i, i + n = vectorArgs.length ∧ s.At vm isTrace vectorArgs i i i

/-- Whatever the loops are, if they come through the frame the call has done
its work. -/
theorem aaaQsWith_done
    {loops : Cells size Ptr → Nat → QsRun size Ptr → Option (QsRun size Ptr)}
    (hFits : vectorArgs.length ≤ size)
    (hLoops : ∀ bufs s, (∀ j, bufs.read j = (vectorArgs.map vm.getBuffer)[j]?) →
      s.Left vm isTrace vectorArgs vectorArgs.length →
        ∃ s', loops bufs vectorArgs.length s = some s' ∧ s'.Left vm isTrace vectorArgs 0) :
    ∃ o, aaaQsWith loops vm vectorArgs = some o ∧ o.Done vm isTrace vectorArgs := by
  have hBufs : ∀ j, (Cells.ofList (vectorArgs.map vm.getBuffer) : Cells size Ptr).read j =
      (vectorArgs.map vm.getBuffer)[j]? := fun j => Cells.read_ofList (by simpa using hFits) j
  obtain ⟨s, hRun, i, hLeft, hAt⟩ := hLoops _ _ hBufs ⟨0, Nat.zero_add _, at_start⟩
  obtain rfl : i = vectorArgs.length := hLeft
  have hEnqueue : vlibBufferEnqueueToNext s.nexts 0 vectorArgs = some (vectorArgs.map (·, 0)) := by
    refine enqueueToNext_eq vectorArgs fun k hk => ?_
    rw [hAt.nexts, if_pos (by omega)]
  refine ⟨⟨s.nexts, s.traces, s.used, vectorArgs.map (·, 0), vectorArgs.length⟩, ?_,
    hAt.nexts, ?_, rfl, hAt.used, rfl⟩
  · simp only [aaaQsWith, vlibGetBuffers, if_pos hFits, hRun, hEnqueue, Option.bind_eq_bind,
      Option.bind_some]
  · rw [hAt.traces, List.take_length]

/-- The second loop takes the count down by one. -/
theorem one_left (hFits : vectorArgs.length ≤ size) {bufs : Cells size Ptr}
    (hBufs : ∀ j, bufs.read j = (vectorArgs.map vm.getBuffer)[j]?) (n : Nat) (s : QsRun size Ptr)
    (h : s.Left vm isTrace vectorArgs (n + 1)) :
    ∃ s', s.one vm bufs isTrace = some s' ∧ s'.Left vm isTrace vectorArgs n := by
  obtain ⟨i, hLeft, hAt⟩ := h
  obtain ⟨s', hOne, hNext⟩ := hAt.one hBufs hLeft hFits
  exact ⟨s', hOne, i + 1, by omega, hNext⟩

/-- The first loop takes it down by four. -/
theorem four_left (hFits : vectorArgs.length ≤ size) {bufs : Cells size Ptr}
    (hBufs : ∀ j, bufs.read j = (vectorArgs.map vm.getBuffer)[j]?) (n : Nat) (s : QsRun size Ptr)
    (h : s.Left vm isTrace vectorArgs (n + 4)) :
    ∃ s', s.four vm bufs isTrace (n + 4) = some s' ∧ s'.Left vm isTrace vectorArgs n := by
  obtain ⟨i, hLeft, hAt⟩ := h
  obtain ⟨s', hFour, hNext⟩ := hAt.four hBufs hLeft hFits
  exact ⟨s', hFour, i + 4, by omega, hNext⟩

theorem aaaQsInline_done (vm : VlibMain Ptr) (isTrace : Bool) (hFits : vectorArgs.length ≤ size) :
    ∃ o, aaaQsInline size vm isTrace vectorArgs = some o ∧ o.Done vm isTrace vectorArgs :=
  aaaQsWith_done hFits fun _ s hBufs hStart =>
    unrolled_spec (four_left hFits hBufs) (one_left hFits hBufs) _ s hStart

theorem onePass_done (vm : VlibMain Ptr) (isTrace : Bool) (hFits : vectorArgs.length ≤ size) :
    ∃ o, onePass size vm isTrace vectorArgs = some o ∧ o.Done vm isTrace vectorArgs :=
  aaaQsWith_done hFits fun _ s hBufs hStart =>
    singles_spec (one_left hFits hBufs) _ s hStart

/-- For every frame the unrolled loops do what one pass over the buffers does,
and neither reads nor writes outside of the frame. -/
theorem aaaQsInline_eq_onePass (vm : VlibMain Ptr) (isTrace : Bool)
    (hFits : vectorArgs.length ≤ size) :
    ∃ o p, aaaQsInline size vm isTrace vectorArgs = some o ∧
      onePass size vm isTrace vectorArgs = some p ∧
      o.nexts = p.nexts ∧ o.traces = p.traces ∧ o.enqueued = p.enqueued ∧
      o.returned = p.returned ∧ o.Done vm isTrace vectorArgs := by
  obtain ⟨o, hInline, hDone⟩ := aaaQsInline_done vm isTrace hFits
  obtain ⟨p, hPass, hPassed⟩ := onePass_done vm isTrace hFits
  refine ⟨o, p, hInline, hPass, ?_, ?_, ?_, ?_, hDone⟩
  · apply Cells.ext_read
    intro k
    rw [hDone.nexts, hPassed.nexts]
  · rw [hDone.traces, hPassed.traces]
  · rw [hDone.enqueued, hPassed.enqueued]
  · rw [hDone.returned, hPassed.returned]

end Calls

/-- Buffers of which every third is marked. -/
def everyThird : VlibMain Nat where
  getBuffer bi := 64 * bi.toNat
  buffer b := ⟨if 3 ∣ b then 1 else 0, 7⟩
  isTraced := 1

/-- Nine buffers: two rounds of the first loop, the first of them with a
prefetch, and one of the second. -/
theorem aaaQsInline_eq_onePass_nine :
    ∃ o p, aaaQsInline 256 everyThird true [3, 4, 5, 6, 7, 8, 9, 10, 11] = some o ∧
      onePass 256 everyThird true [3, 4, 5, 6, 7, 8, 9, 10, 11] = some p ∧
      o.nexts = p.nexts ∧ o.traces = p.traces ∧ o.enqueued = p.enqueued ∧
      o.returned = p.returned ∧ o.Done everyThird true [3, 4, 5, 6, 7, 8, 9, 10, 11] :=
  aaaQsInline_eq_onePass everyThird true (by decide)

example : (aaaQsInline 9 everyThird true [3, 4, 5, 6, 7, 8, 9, 10, 11]).map QsResult.traces =
    some [⟨192, 0, 7⟩, ⟨384, 0, 7⟩, ⟨576, 0, 7⟩] := by
  decide +kernel

end DpdkPerf.NodeTest
