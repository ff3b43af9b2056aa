import DpdkPerf.Machine.Handles
import DpdkPerf.Machine.Run

/-! The UDP server of fp-sock: the hook that OFP calls with a socket's events.
A datagram is sent back in the packet it came in, with `ECHO:` before it. What
ODP and OFP do with a packet is given.

The calls of the hook are one after another, as they are with one dispatcher
thread: all threads share its counter and its sigval, and nothing locks them. -/
namespace DpdkPerf.FpSock

/-- What the hook uses of ODP, on packets in one segment. -/
structure OdpPacket (P : Type) where
  /-- `odp_packet_len` bytes from `odp_packet_data` on. -/
  data : P → List UInt8
  headroom : P → Nat
  pushHead : P → Nat → P
  /-- `memcpy` to `odp_packet_data`. -/
  memcpy : P → List UInt8 → P

/-- What is documented of that. -/
structure OdpPacket.Documented {P : Type} (odp : OdpPacket P) : Prop where
  /-- The head is moved into the headroom. -/
  pushes : ∀ pkt len, len ≤ odp.headroom pkt →
    ∃ front, front.length = len ∧ odp.data (odp.pushHead pkt len) = front ++ odp.data pkt
  /-- The packet is not modified if there is not enough headroom. -/
  keeps : ∀ pkt len, odp.headroom pkt < len → odp.pushHead pkt len = pkt
  copies : ∀ pkt src front rest, odp.data pkt = front ++ rest → front.length = src.length →
    odp.data (odp.memcpy pkt src) = src ++ rest
  /-- A copy does not change where the data ends. -/
  keepsLength : ∀ pkt src, (odp.data (odp.memcpy pkt src)).length = (odp.data pkt).length

def echo : List UInt8 := "ECHO:".toList.map fun c => c.toNat.toUInt8

theorem length_echo : echo.length = 5 := rfl

/-- What `notify` makes of a packet. The result of the push is not looked at. -/
def OdpPacket.reply {P : Type} (odp : OdpPacket P) (pkt : P) : P :=
  odp.memcpy (odp.pushHead pkt 5) echo

/-- The text is put before the data exactly if there is room for it. -/
theorem OdpPacket.Documented.data_reply_iff {P : Type} {odp : OdpPacket P} (h : odp.Documented)
    (pkt : P) : odp.data (odp.reply pkt) = echo ++ odp.data pkt ↔ 5 ≤ odp.headroom pkt := by
  constructor
  · intro hData
    by_contra hShort
    have hLength := h.keepsLength (odp.pushHead pkt 5) echo
    rw [← reply, hData, h.keeps pkt 5 (by omega), List.length_append, length_echo] at hLength
    omega
  · intro hRoom
    obtain ⟨front, hFront, hPushed⟩ := h.pushes pkt 5 hRoom
    exact h.copies _ echo front _ hPushed (hFront.trans length_echo.symm)

inductive OfpEvent where
  | recv
  | other (code : Int)
  deriving DecidableEq, Repr

section Hook

variable {H P A : Type}

structure OfpSockSigval (H : Type) where
  pkt : H
  event : OfpEvent
  sockfd : Int

/-- What `ofp_udp_packet_parse` makes of a packet: its data is the payload then,
`text` is the `n` bytes at `p`, and the address is that of the sender. -/
structure Parsed (P A : Type) where
  pkt : P
  text : List UInt8
  addr : A

/-- What the hook uses of OFP. `invalid` is `ODP_PACKET_INVALID`. -/
structure Ofp (H P A : Type) where
  odp : OdpPacket P
  invalid : H
  parse : P → Parsed P A

inductive PktCall (H A : Type) where
  | ofpUdpPacketParse (pkt : H)
  | print (text : List UInt8)
  | odpPacketPushHead (pkt : H) (len : Nat)
  | memcpy (pkt : H) (src : List UInt8)
  | ofpUdpPktSendto (s : Int) (pkt : H) (data : List UInt8) (addr : A)

variable (ofp : Ofp H P A)

/-- `packet` is what the packet in `ss` holds, and `c` is the variable that is
kept between the calls. -/
def notify (c : Int) (ss : OfpSockSigval H) (packet : P) :
    Int × OfpSockSigval H × List (PktCall H A) :=
  match ss.event with
  | .other _ => (c, ss, [])
  | .recv =>
      let parsed := ofp.parse packet
      let reply := ofp.odp.data (ofp.odp.reply parsed.pkt)
      (Int.bmod (c + 1) (2 ^ 32), { ss with pkt := ofp.invalid },
        .ofpUdpPacketParse ss.pkt ::
          ((if c.tmod 1000000 = 0 then [.print parsed.text] else []) ++
            [.odpPacketPushHead ss.pkt 5, .memcpy ss.pkt echo,
              .ofpUdpPktSendto ss.sockfd ss.pkt reply parsed.addr]))

/-- An event as OFP puts it into `ss`, and what its packet holds. -/
structure Delivery (H P : Type) where
  ss : OfpSockSigval H
  packet : P

/-- The server after its socket is set up, with the counter as its state. A
call leaves a sigval. -/
def udpHook : Machine Int (Delivery H P) (OfpSockSigval H × List (PktCall H A)) where
  enabled _ _ := True
  next c d := (notify ofp c d.ss d.packet).1
  output c d := (notify ofp c d.ss d.packet).2

/-- The calls of a run to OFP and ODP. -/
def hookCalls (c : Int) (ds : List (Delivery H P)) : List (PktCall H A) :=
  ((udpHook ofp).trace c ds).flatMap Prod.snd

/-- The events that come with a datagram. -/
def recvs (ds : List (Delivery H P)) : List (Delivery H P) := ds.filter fun d => d.ss.event = .recv

/-- The datagrams that calls send, with the socket and the receiver. -/
def sends (calls : List (PktCall H A)) : List (Int × List UInt8 × A) :=
  calls.filterMap fun
    | .ofpUdpPktSendto s _ data addr => some (s, data, addr)
    | _ => none

/-- The packets that calls hand to `ofp_udp_pkt_sendto`. -/
def handed (calls : List (PktCall H A)) : List H :=
  calls.filterMap fun
    | .ofpUdpPktSendto _ pkt _ _ => some pkt
    | _ => none

/-- What calls print. -/
def prints (calls : List (PktCall H A)) : List (List UInt8) :=
  calls.filterMap fun
    | .print text => some text
    | _ => none

variable {ofp} {c : Int} {d : Delivery H P}

/-- A datagram is counted, answered and handed over, and sometimes printed. -/
theorem notify_recv (h : d.ss.event = .recv) :
    notify ofp c d.ss d.packet =
      (Int.bmod (c + 1) (2 ^ 32), { d.ss with pkt := ofp.invalid },
        .ofpUdpPacketParse d.ss.pkt ::
          ((if c.tmod 1000000 = 0 then [.print (ofp.parse d.packet).text] else []) ++
            [.odpPacketPushHead d.ss.pkt 5, .memcpy d.ss.pkt echo,
              .ofpUdpPktSendto d.ss.sockfd d.ss.pkt
                (ofp.odp.data (ofp.odp.reply (ofp.parse d.packet).pkt))
                (ofp.parse d.packet).addr])) := by
  simp only [notify, h]

/-- Only receive events are accepted: any other leaves everything as it is. -/
theorem notify_other (h : d.ss.event ≠ .recv) : notify ofp c d.ss d.packet = (c, d.ss, []) := by
  unfold notify
  split
  · rfl
  · contradiction

/-- Only the receive events bring datagrams. -/
theorem recvs_cons (d : Delivery H P) (ds : List (Delivery H P)) :
    recvs (d :: ds) = if d.ss.event = .recv then d :: recvs ds else recvs ds := by
  unfold recvs
  rw [List.filter_cons]
  simp only [decide_eq_true_eq]

/-- The calls of the events follow on each other. -/
theorem hookCalls_cons (c : Int) (d : Delivery H P) (ds : List (Delivery H P)) :
    hookCalls ofp c (d :: ds) =
      (notify ofp c d.ss d.packet).2.2 ++
        hookCalls ofp (notify ofp c d.ss d.packet).1 ds := by
  unfold hookCalls
  rw [Machine.trace_cons, List.flatMap_cons]
  rfl

/-- What is picked from the calls of a run comes from its datagrams one after
another, if a call of the hook gives one thing for a datagram whatever the
counter is, and nothing for another event. -/
theorem filterMap_hookCalls {X : Type} {pick : PktCall H A → Option X} {one : Delivery H P → X}
    (hOne : ∀ c d, d.ss.event = .recv →
      (notify ofp c d.ss d.packet).2.2.filterMap pick = [one d])
    (c : Int) (ds : List (Delivery H P)) :
    (hookCalls ofp c ds).filterMap pick = (recvs ds).map one := by
  induction ds generalizing c with
  | nil => rfl
  | cons d ds ih =>
      rw [hookCalls_cons, recvs_cons, List.filterMap_append, ih]
      by_cases hRecv : d.ss.event = .recv
      · rw [if_pos hRecv, List.map_cons, hOne c d hRecv]
        rfl
      · rw [if_neg hRecv, notify_other hRecv]
        rfl

/-- Each datagram is answered once, to its sender. -/
theorem sends_hookCalls (ofp : Ofp H P A) (c : Int) (ds : List (Delivery H P)) :
    sends (hookCalls ofp c ds) =
      (recvs ds).map fun d =>
        (d.ss.sockfd, ofp.odp.data (ofp.odp.reply (ofp.parse d.packet).pkt),
          (ofp.parse d.packet).addr) := by
  refine filterMap_hookCalls (fun c d hRecv => ?_) c ds
  rw [notify_recv hRecv]
  split <;> rfl

/-- The sigvals that the calls of a run leave. Only that of a datagram changes:
it has no packet any more. -/
theorem sigvals_trace (ofp : Ofp H P A) (c : Int) (ds : List (Delivery H P)) :
    ((udpHook ofp).trace c ds).map Prod.fst =
      ds.map fun d => if d.ss.event = .recv then { d.ss with pkt := ofp.invalid } else d.ss := by
  induction ds generalizing c with
  | nil => rfl
  | cons d ds ih =>
      rw [Machine.trace_cons, List.map_cons, List.map_cons, ih]
      congr 1
      show (notify ofp c d.ss d.packet).2.1 = _
      by_cases hRecv : d.ss.event = .recv
      · rw [if_pos hRecv, notify_recv hRecv]
      · rw [if_neg hRecv, notify_other hRecv]

/-- Every datagram is answered to its sender by itself with `ECHO:` before it,
exactly if each leaves room for that before its payload. -/
theorem udpHook_echoes_iff (hOdp : ofp.odp.Documented) {c : Int} {ds : List (Delivery H P)} :
    sends (hookCalls ofp c ds) =
        (recvs ds).map (fun d =>
          (d.ss.sockfd, echo ++ ofp.odp.data (ofp.parse d.packet).pkt,
            (ofp.parse d.packet).addr)) ↔
      ∀ d ∈ recvs ds, 5 ≤ ofp.odp.headroom (ofp.parse d.packet).pkt := by
  rw [sends_hookCalls, List.map_inj_left]
  refine forall₂_congr fun d hMem => ?_
  rw [Prod.mk.injEq, Prod.mk.injEq, hOdp.data_reply_iff]
  simp only [true_and, and_true]

/-- A packet in a buffer: what is before its data, its data, and the rest. -/
structure FlatPacket where
  front : List UInt8
  data : List UInt8
  tail : List UInt8
  deriving DecidableEq, Repr

namespace FlatPacket

def pushHead (pkt : FlatPacket) (len : Nat) : FlatPacket :=
  if len ≤ pkt.front.length then
    let left := pkt.front.length - len
    { pkt with front := pkt.front.take left, data := pkt.front.drop left ++ pkt.data }
  else pkt

/-- A copy that is longer than the data goes on behind it. -/
def memcpy (pkt : FlatPacket) (src : List UInt8) : FlatPacket :=
  let after := src ++ (pkt.data ++ pkt.tail).drop src.length
  { pkt with data := after.take pkt.data.length, tail := after.drop pkt.data.length }

def odp : OdpPacket FlatPacket where
  data := data
  headroom pkt := pkt.front.length
  pushHead := pushHead
  memcpy := memcpy

/-- The frame of a datagram without IP options, where the sender is the source
address with the source port. -/
def parse (pkt : FlatPacket) : Parsed FlatPacket (List UInt8) where
  pkt := { pkt with front := pkt.front ++ pkt.data.take 42, data := pkt.data.drop 42 }
  text := pkt.data.drop 42
  addr := (pkt.data.drop 26).take 4 ++ (pkt.data.drop 34).take 2

theorem odp_documented : odp.Documented where
  pushes pkt len hRoom := by
    refine ⟨pkt.front.drop (pkt.front.length - len), ?_, ?_⟩
    · rw [List.length_drop]
      exact Nat.sub_sub_self hRoom
    · have hHere : len ≤ pkt.front.length := hRoom
      show (pkt.pushHead len).data = _
      rw [pushHead, if_pos hHere]
      rfl
  keeps pkt len hShort := if_neg (Nat.not_le_of_lt hShort)
  copies := by
    rintro ⟨before, data, tail⟩ src front rest hData hLength
    obtain rfl : data = front ++ rest := hData
    show (src ++ (front ++ rest ++ tail).drop src.length).take (front ++ rest).length = src ++ rest
    rw [List.append_assoc, List.drop_left' hLength, ← List.append_assoc, List.length_append,
      hLength, ← List.length_append, List.take_left]
  keepsLength pkt src := by
    show ((src ++ (pkt.data ++ pkt.tail).drop src.length).take pkt.data.length).length =
      pkt.data.length
    rw [List.length_take, List.length_append, List.length_drop, List.length_append]
    omega

def stack : Ofp Nat FlatPacket (List UInt8) where
  odp := odp
  invalid := 0
  parse := parse

end FlatPacket

/-- A frame with two bytes of payload, and an event without a packet. -/
def twoEvents : List (Delivery Nat FlatPacket) :=
  [⟨⟨7, .recv, 3⟩, ⟨[], List.replicate 42 1 ++ [104, 105], []⟩⟩, ⟨⟨0, .other 1, 3⟩, ⟨[], [], []⟩⟩]

/-- Two datagrams with an event of another kind between them. -/
theorem udpHook_echoes_two :
    sends (hookCalls FlatPacket.stack 0 twoEvents) =
      (recvs twoEvents).map fun d =>
        (d.ss.sockfd, echo ++ (FlatPacket.parse d.packet).pkt.data,
          (FlatPacket.parse d.packet).addr) :=
  (udpHook_echoes_iff FlatPacket.odp_documented).mpr (by decide)

/-- What is printed of a datagram at a count. -/
def printed (ofp : Ofp H P A) (c : Int) (d : Delivery H P) : List (List UInt8) :=
  if 1000000 ∣ c then [(ofp.parse d.packet).text] else []

/-- A datagram prints what its number says. -/
theorem prints_notify (h : d.ss.event = .recv) :
    prints (notify ofp c d.ss d.packet).2.2 = printed ofp c d := by
  rw [notify_recv h]
  unfold prints printed
  simp only [Int.dvd_iff_tmod_eq_zero]
  split <;> rfl

theorem notify_count {k : Nat} (h : d.ss.event = .recv) (hCount : c = Int.bmod k (2 ^ 32)) :
    (notify ofp c d.ss d.packet).1 = Int.bmod (k + 1 : Nat) (2 ^ 32) := by
  rw [notify_recv h, hCount, Int.natCast_add_one, Int.bmod_add_bmod]

/-- The counter is that of the datagrams before, as an `int` that wraps. -/
theorem prints_hookCalls (ofp : Ofp H P A) {k : Nat} (ds : List (Delivery H P))
    (hCount : c = Int.bmod k (2 ^ 32)) :
    prints (hookCalls ofp c ds) =
      ((recvs ds).zipIdx k).flatMap fun x => printed ofp (Int.bmod x.2 (2 ^ 32)) x.1 := by
  induction ds generalizing c k with
  | nil => rfl
  | cons d ds ih =>
      have hSplit : prints (hookCalls ofp c (d :: ds)) =
          prints (notify ofp c d.ss d.packet).2.2 ++
            prints (hookCalls ofp (notify ofp c d.ss d.packet).1 ds) := by
        rw [hookCalls_cons]
        exact List.filterMap_append
      rw [hSplit, recvs_cons]
      by_cases hRecv : d.ss.event = .recv
      · rw [if_pos hRecv, prints_notify hRecv, ih (notify_count hRecv hCount),
          List.zipIdx_cons, List.flatMap_cons, ← hCount]
      · rw [if_neg hRecv, notify_other hRecv]
        exact ih hCount

/-- Of the datagrams the first is printed and every millionth after it, as long
as the `int` that counts them does not overflow. -/
theorem udpHook_prints {ds : List (Delivery H P)} (h : (recvs ds).length < 2 ^ 31) :
    prints (hookCalls ofp 0 ds) =
      (recvs ds).zipIdx.flatMap fun x =>
        if 1000000 ∣ x.2 then [(ofp.parse x.1.packet).text] else [] := by
  have hStart : (0 : Int) = Int.bmod (0 : Nat) (2 ^ 32) := Int.zero_bmod.symm
  rw [prints_hookCalls ofp ds hStart]
  refine List.flatMap_congr fun x hMem => ?_
  have hLt : x.2 < (recvs ds).length := by
    have hAt := List.mk_mem_zipIdx_iff_getElem?.mp hMem
    exact (List.getElem?_eq_some_iff.mp hAt).1
  have hFits : Int.bmod x.2 (2 ^ 32) = x.2 := Int.bmod_eq_of_le (by omega) (by omega)
  have hDvd : (1000000 : Int) ∣ x.2 ↔ 1000000 ∣ x.2 := Int.natCast_dvd_natCast
  rw [hFits, printed]
  simp only [hDvd]

/-- Of two datagrams the first is printed. -/
theorem udpHook_prints_two :
    prints (hookCalls FlatPacket.stack 0 twoEvents) =
      (recvs twoEvents).zipIdx.flatMap fun x =>
        if 1000000 ∣ x.2 then [(FlatPacket.parse x.1.packet).text] else [] :=
  udpHook_prints (by decide)

section Ownership

/-- The packet that a call uses or gives away. -/
def PktCall.op : PktCall H A → Option (HandleOp H)
  | ofpUdpPacketParse pkt | odpPacketPushHead pkt _ | memcpy pkt _ => some (.use pkt)
  | ofpUdpPktSendto _ pkt _ _ => some (.release pkt)
  | print _ => none

variable [DecidableEq H]

/-- The packet that is in a sigval. -/
def Ofp.held (ofp : Ofp H P A) (ss : OfpSockSigval H) : List H :=
  if ss.pkt = ofp.invalid then [] else [ss.pkt]

/-- A call of the hook: OFP brings it the packet in `ss`, and the one that it
leaves there is OFP's again. -/
def callLog (ofp : Ofp H P A) (c : Int) (d : Delivery H P) : List (HandleOp H) :=
  let (_, ss, calls) := notify ofp c d.ss d.packet
  (ofp.held d.ss).map .acquire ++ (calls.filterMap PktCall.op ++ (ofp.held ss).map .release)

def packetLog (ofp : Ofp H P A) (c : Int) (ds : List (Delivery H P)) : List (HandleOp H) :=
  ((udpHook ofp).visits c ds).flatMap fun v => callLog ofp v.1 v.2

/-- A packet is used and then sent, or it is left as it came. -/
theorem callLog_leaves (ofp : Ofp H P A) (c : Int) (d : Delivery H P)
    (hPacket : d.ss.event = .recv → d.ss.pkt ≠ ofp.invalid) : Leaves ∅ (callLog ofp c d) ∅ := by
  have hNew : d.ss.pkt ∉ (∅ : Finset H) := Finset.notMem_empty _
  unfold callLog
  by_cases hRecv : d.ss.event = .recv
  · have hUse := leaves_use (Finset.mem_insert_self d.ss.pkt ∅)
    have hLog := Leaves.bracket hNew (hUse.append (hUse.append hUse))
    rw [notify_recv hRecv]
    simp only [Ofp.held, if_neg (hPacket hRecv)]
    split <;> exact hLog
  · rw [notify_other hRecv]
    by_cases hNone : d.ss.pkt = ofp.invalid
    · simp only [Ofp.held, if_pos hNone]
      exact leaves_nil ∅
    · simp only [Ofp.held, if_neg hNone]
      exact Leaves.bracket hNew (leaves_nil _)

/-- The hook uses no packet before OFP brings it, nor after it is handed to
`ofp_udp_pkt_sendto` or left in the sigval, and keeps none. Those of the
datagrams are handed over, each once, and all others stay where they are. -/
theorem packetLog_leaves {ds : List (Delivery H P)}
    (hPackets : ∀ d ∈ recvs ds, d.ss.pkt ≠ ofp.invalid) :
    Leaves ∅ (packetLog ofp c ds) ∅ ∧
      handed (hookCalls ofp c ds) = (recvs ds).map (fun d => d.ss.pkt) ∧
      ((udpHook ofp).trace c ds).map Prod.fst =
        ds.map fun d => if d.ss.event = .recv then { d.ss with pkt := ofp.invalid } else d.ss := by
  refine ⟨?_, ?_, sigvals_trace ofp c ds⟩
  · refine Leaves.flatMap fun v hVisit => callLog_leaves ofp v.1 v.2 fun hRecv => ?_
    have hMeets : (udpHook ofp).Meets (fun _ d => d ∈ ds) c ds :=
      Machine.meets_of_inputs (fun _ hMem => hMem) c
    exact hPackets v.2 (List.mem_filter.mpr ⟨hMeets v hVisit, decide_eq_true hRecv⟩)
  · refine filterMap_hookCalls (fun c d hRecv => ?_) c ds
    rw [notify_recv hRecv]
    split <;> rfl

/-- The packet of the datagram is handed over, and the other event has none. -/
theorem packetLog_leaves_two :
    Leaves ∅ (packetLog FlatPacket.stack 0 twoEvents) ∅ ∧
      handed (hookCalls FlatPacket.stack 0 twoEvents) = [7] ∧
      ((udpHook FlatPacket.stack).trace 0 twoEvents).map Prod.fst =
        [⟨0, .recv, 3⟩, ⟨0, .other 1, 3⟩] :=
  packetLog_leaves (by decide)

end Ownership

end Hook

end DpdkPerf.FpSock
