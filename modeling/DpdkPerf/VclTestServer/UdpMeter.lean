import DpdkPerf.Machine.Windows

/-! The throughput meter of the UDP branch of `vts_worker_loop`: it counts
the result of every read, whatever the result was. -/
namespace DpdkPerf.VclTestServer

/-- `status_t` without the floating-point time of the last publication. -/
structure UdpStatus where
  speed : UInt64 := 0
  total : UInt64 := 0
  pps : UInt64 := 0
  curPps : UInt64 := 0
  deriving DecidableEq, Repr

/-- The result of one read, and whether a second has passed since the last
publication: the comparison is one of floating-point numbers. -/
structure UdpRead where
  rxBytes : Int32
  secondPassed : Bool
  deriving DecidableEq, Repr

/-- `hdr` is `sizeof (session_dgram_hdr_t)`, so the difference is unsigned. -/
def UdpStatus.count (hdr : UInt64) (status : UdpStatus) (rxBytes : Int32) : UdpStatus :=
  { status with
    total := status.total + (rxBytes.toInt64.toUInt64 - hdr)
    curPps := status.curPps + 1 }

def UdpStatus.publish (status : UdpStatus) : UdpStatus :=
  { pps := status.curPps, curPps := 0, speed := status.total * 8, total := 0 }

/-- A second that has passed prints the speed and the packets. -/
def udpMeter (hdr : UInt64) : Machine UdpStatus UdpRead (Option (UInt64 × UInt64)) where
  enabled _ _ := True
  next status r :=
    let status := status.count hdr r.rxBytes
    if r.secondPassed then status.publish else status
  output status r :=
    let status := (status.count hdr r.rxBytes).publish
    if r.secondPassed then some (status.speed, status.pps) else none

def udpWindows (hdr : UInt64) (reads : List UdpRead) : Windows UdpRead :=
  (udpMeter hdr).windows (fun _ r => r.secondPassed) {} reads

/-- The result of a read that got a datagram: its length, header included. -/
def IsDatagram (hdr : UInt64) (rxBytes : Int32) : Prop := (hdr.toNat : Int) ≤ rxBytes.toInt

instance (hdr : UInt64) (rxBytes : Int32) : Decidable (IsDatagram hdr rxBytes) :=
  inferInstanceAs (Decidable (_ ≤ _))

def payload (hdr : UInt64) (r : UdpRead) : Nat :=
  if IsDatagram hdr r.rxBytes then r.rxBytes.toInt.toNat - hdr.toNat else 0

def datagrams (hdr : UInt64) (r : UdpRead) : Nat := if IsDatagram hdr r.rxBytes then 1 else 0

/-- The counters are those of the datagrams received, modulo 2^64. -/
structure UdpStatus.Counts (hdr : UInt64) (received : List UdpRead) (status : UdpStatus) :
    Prop where
  total : status.total = .ofNat (Windows.total (payload hdr) received)
  curPps : status.curPps = .ofNat (Windows.total (datagrams hdr) received)

/-- The counters are right after each read is counted, and again once the
window is closed where it is. -/
def CountsReceived (hdr : UInt64) (reads : List UdpRead) : Prop :=
  ∀ before r after, reads = before ++ r :: after →
    (((udpMeter hdr).run {} before).count hdr r.rxBytes).Counts hdr
        ((udpWindows hdr before).current ++ [r]) ∧
      ((udpMeter hdr).run {} (before ++ [r])).Counts hdr (udpWindows hdr (before ++ [r])).current

variable {hdr : UInt64} {status : UdpStatus} {received reads : List UdpRead} {r : UdpRead}

/-- A datagram has its header, so that taking it off does not wrap. -/
theorem toUInt64_sub (h : IsDatagram hdr r.rxBytes) :
    r.rxBytes.toInt64.toUInt64 - hdr = .ofNat (payload hdr r) := by
  rw [payload, if_pos h]
  rw [IsDatagram] at h
  have hNonneg : (0 : Int64) ≤ r.rxBytes.toInt64 := by
    rw [Int64.le_iff_toInt_le, Int32.toInt_toInt64]
    exact Int.le_trans (Int.natCast_nonneg _) h
  have hNat : r.rxBytes.toInt64.toUInt64.toNat = r.rxBytes.toInt.toNat := by
    rw [Int64.toNat_toUInt64_of_le hNonneg, Int32.toNatClampNeg_toInt64]
    rfl
  have hLe : hdr ≤ r.rxBytes.toInt64.toUInt64 := by
    rw [UInt64.le_iff_toNat_le, hNat]
    omega
  have hFits : r.rxBytes.toInt.toNat - hdr.toNat < UInt64.size := by
    rw [← hNat]
    exact Nat.lt_of_le_of_lt (Nat.sub_le _ _) (UInt64.toNat_lt_size _)
  apply UInt64.toNat_inj.mp
  rw [UInt64.toNat_sub_of_le _ _ hLe, hNat, UInt64.toNat_ofNat_of_lt' hFits]

/-- Counting a datagram is right, and counting anything else is not: it is
one packet too many. -/
theorem UdpStatus.Counts.count_iff (h : status.Counts hdr received) :
    (status.count hdr r.rxBytes).Counts hdr (received ++ [r]) ↔ IsDatagram hdr r.rxBytes := by
  constructor
  · intro hCount
    by_contra hNot
    have hPps := hCount.curPps
    have hNone : datagrams hdr r = 0 := if_neg hNot
    rw [Windows.total_append, Windows.total_singleton, hNone, Nat.add_zero, ← h.curPps] at hPps
    exact absurd hPps (by simp [UdpStatus.count])
  · intro hDatagram
    have hOne : datagrams hdr r = 1 := if_pos hDatagram
    constructor
    · simp [UdpStatus.count, h.total, toUInt64_sub hDatagram]
    · simp [UdpStatus.count, h.curPps, hOne]

theorem counts_nil : UdpStatus.Counts hdr [] {} := ⟨rfl, rfl⟩

/-- The window that is open after a read has the right counters if the read
was counted right. -/
theorem counts_next (before : List UdpRead)
    (h : (((udpMeter hdr).run {} before).count hdr r.rxBytes).Counts hdr
      ((udpWindows hdr before).current ++ [r])) :
    ((udpMeter hdr).run {} (before ++ [r])).Counts hdr (udpWindows hdr (before ++ [r])).current := by
  have hWindows : udpWindows hdr (before ++ [r]) = (udpWindows hdr before).push r r.secondPassed :=
    Machine.windows_concat ..
  rw [hWindows, Machine.run_append]
  cases hSecond : r.secondPassed with
  | false => simpa [udpMeter, hSecond] using h
  | true =>
      have hClosed : (((udpMeter hdr).run {} before).count hdr r.rxBytes).publish.Counts hdr [] :=
        ⟨rfl, rfl⟩
      simpa [udpMeter, hSecond] using hClosed

/-- The meter counts what is in the open window. -/
theorem counts_of_datagrams (h : ∀ r ∈ reads, IsDatagram hdr r.rxBytes) :
    ((udpMeter hdr).run {} reads).Counts hdr (udpWindows hdr reads).current := by
  induction reads using List.reverseRecOn with
  | nil => exact counts_nil
  | append_singleton past r ih =>
      rw [List.forall_mem_append] at h
      exact counts_next past ((ih h.1).count_iff.mpr (h.2 r (List.mem_singleton_self r)))

theorem CountsReceived.run {before after : List UdpRead} (h : CountsReceived hdr reads)
    (hSplit : reads = before ++ after) :
    ((udpMeter hdr).run {} before).Counts hdr (udpWindows hdr before).current := by
  cases before using List.reverseRecOn with
  | nil => exact counts_nil
  | append_singleton past r =>
      apply (h past r after _).2
      rw [hSplit, List.append_assoc, List.singleton_append]

/-- The meter counts what was received, at every point, if and only if every
read gets a datagram with its whole header. -/
theorem countsReceived_iff (hdr : UInt64) (reads : List UdpRead) :
    CountsReceived hdr reads ↔ ∀ r ∈ reads, IsDatagram hdr r.rxBytes := by
  constructor
  · intro h r hMem
    obtain ⟨before, after, hSplit⟩ := List.append_of_mem hMem
    exact (h.run hSplit).count_iff.mp (h before r after hSplit).1
  · rintro h before r after rfl
    simp only [List.forall_mem_append, List.forall_mem_cons] at h
    have hCount := (counts_of_datagrams h.1).count_iff.mpr h.2.1
    exact ⟨hCount, counts_next before hCount⟩

/-- A read that finds nothing: the meter has one packet, and 2^64 less the
code and the header for its length. -/
theorem not_countsReceived : ¬ CountsReceived 45 [⟨-11, false⟩] := by
  intro h
  have hTotal := (h [] ⟨-11, false⟩ [] rfl).1.total
  revert hTotal
  decide +kernel

end DpdkPerf.VclTestServer
