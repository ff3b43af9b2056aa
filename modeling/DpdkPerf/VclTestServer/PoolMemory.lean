import DpdkPerf.VclTestServer.Interleaving
import DpdkPerf.VclTestServer.Layout

/-! The functions of the worker on the pool itself. Here `conn` is a pointer
into the pool, given by its index, and every assignment through it writes the
pool, so that a function could write any record. -/
namespace DpdkPerf.VclTestServer

variable (V : VclTestApi) (useDs : Bool)

/-- `*conn`. -/
def deref (pool : List Conn) (conn : Nat) : Conn :=
  pool.getD conn (freshConn V)

def syncConfigAndReplyAt (env : Env) (pool : List Conn) (conn : Nat) (rxCfg : VclTestCfg) :
    List Conn × List Call :=
  let pool := pool.modify conn fun c => { c with cfg := rxCfg }
  let pool := pool.modify conn fun c =>
    let (cfg, buf) := vclTestBufAlloc V c.cfg c.buf
    { c with cfg := cfg, buf := buf }
  let pool := pool.modify conn fun c =>
    { c with cfg := { c.cfg with txbufSize := c.cfg.rxbufSize } }
  (pool, [.write (deref V pool conn).fd (env.written (V.encode (deref V pool conn).cfg))])

/-- One round of the loop over the pool, with `tc = &wrk->conn_pool[i]`. -/
def accumulateSlotAt (conn : Nat) (acc : List Conn × List Call) (i : Nat) :
    List Conn × List Call :=
  let (pool, calls) := acc
  if (deref V pool i).cfg.ctrlHandle ≠ (deref V pool conn).fd.toUInt32 then (pool, calls)
  else
    let pool := pool.modify conn fun c =>
      { c with stats := c.stats.accumulate (deref V pool i).stats }
    let pool :=
      if (deref V pool conn).stats.stop.Before (deref V pool i).stats.stop then
        pool.modify conn fun c =>
          { c with stats := { c.stats with stop := (deref V pool i).stats.stop } }
      else pool
    let pool := pool.modify conn fun c =>
      let stop := c.stats.stop
      { c with stats := { c.stats with stop := { stop with tvSec := stop.tvSec - V.delayDisconnect } } }
    if (deref V pool conn).cfg.verbose ≠ 0 then
      (pool, calls ++ [.statsDump (some (deref V pool i).fd) (deref V pool i).stats])
    else (pool, calls)

def vtsServerStartStopAt (env : Env) (pool : List Conn) (conn : Nat) (rxCfg : VclTestCfg) :
    List Conn × List Call :=
  if rxCfg.ctrlHandle = (deref V pool conn).fd.toUInt32 then
    let (pool, calls) := (List.range pool.length).foldl (accumulateSlotAt V conn) (pool, [])
    let results := [Call.statsDump none (deref V pool conn).stats]
    let (pool, reply) := syncConfigAndReplyAt V env pool conn rxCfg
    (pool.modify conn fun c => { c with stats := {} }, calls ++ results ++ reply)
  else
    let (pool, rxCfg) :=
      if rxCfg.ctrlHandle = 0xffffffff then
        let rxCfg := { rxCfg with ctrlHandle := (deref V pool conn).fd.toUInt32 }
        (pool.modify conn fun c => { c with buf := c.buf.write (V.encode rxCfg) }, rxCfg)
      else (pool, rxCfg)
    let (pool, reply) := syncConfigAndReplyAt V env pool conn rxCfg
    let pool := pool.modify conn fun c => { c with stats := {} }
    (pool.modify conn fun c => { c with stats := { c.stats with start := env.now } },
      reply ++ [.startTime])

def writeCountedAt (env : Env) (pool : List Conn) (conn : Nat) (data : Bytes) :
    List Conn × List Call :=
  let sent := env.written data
  (pool.modify conn fun c => { c with stats := { c.stats with
      txXacts := c.stats.txXacts + env.txXacts
      txBytes := c.stats.txBytes + UInt64.ofNat sent.length } },
    [.write (deref V pool conn).fd sent])

def vtsServerWriteBackAt (env : Env) (pool : List Conn) (conn : Nat) (rxBytes : Nat) :
    List Conn × List Call :=
  if useDs then
    let (pool, first) := writeCountedAt V env pool conn (deref V pool conn).ds.first
    if (deref V pool conn).ds.second.length ≠ 0 then
      let (pool, second) := writeCountedAt V env pool conn (deref V pool conn).ds.second
      (pool, first ++ second)
    else (pool, first)
  else writeCountedAt V env pool conn ((deref V pool conn).buf.bytes.take rxBytes)

def vtsServerRxAt (env : Env) (pool : List Conn) (conn : Nat) (rxBytes : Nat) :
    List Conn × List Call :=
  let (pool, written) :=
    if (deref V pool conn).cfg.test = .bi then vtsServerWriteBackAt V useDs env pool conn rxBytes
    else (pool, [])
  let freed := if useDs then [Call.freeSegments (deref V pool conn).fd] else []
  if (deref V pool conn).stats.rxBytes ≥ (deref V pool conn).cfg.totalBytes then
    (pool.modify conn fun c => { c with stats := { c.stats with stop := env.now } },
      written ++ freed ++ [.stopTime])
  else (pool, written ++ freed)

def vtsServerEchoAt (env : Env) (pool : List Conn) (conn : Nat) (rxBytes : Nat) :
    List Conn × List Call :=
  let pool :=
    if useDs then pool.modify conn fun c => { c with buf := c.buf.write (c.ds.data.take rxBytes) }
    else pool
  let bufSize := (deref V pool conn).bufSize
  let pos := if rxBytes < bufSize.toNat then rxBytes else (bufSize - 1).toNat
  let pool := pool.modify conn fun c => { c with buf := c.buf.terminate pos }
  writeCountedAt V env pool conn ((deref V pool conn).buf.bytes.takeWhile (· ≠ 0) ++ [0])

def vtsHandleCfgAt (env : Env) (pool : List Conn) (nfds : Int) (conn : Nat) (rxCfg : VclTestCfg)
    (rxBytes : Nat) : List Conn × List Call × Int :=
  if rxBytes ≠ V.cfgSize then
    let pool := pool.modify conn fun c => { c with cfg := { c.cfg with rxbufSize := 0 } }
    let pool := pool.modify conn fun c => { c with cfg := { c.cfg with numWrites := 0 } }
    (pool, [.write (deref V pool conn).fd (env.written (V.encode (deref V pool conn).cfg))], nfds)
  else
    match rxCfg.test with
    | .none | .echo =>
        let (pool, calls) := syncConfigAndReplyAt V env pool conn rxCfg
        (pool, calls, nfds)
    | .bi | .uni =>
        let (pool, calls) := vtsServerStartStopAt V env pool conn rxCfg
        (pool, calls, nfds)
    | .exit =>
        let pool := pool.modify conn fun c => { c with stats := { c.stats with stop := env.now } }
        let close := Call.close (deref V pool conn).fd
        (pool.modify conn connPoolFree, [.stopTime, close], nfds - 1)
    | .unknown _ => (pool, [], nfds)

/-- A read that returned the message `ds`. -/
def vtsConnReadAt (env : Env) (pool : List Conn) (conn : Nat) (ds : Segments) : List Conn :=
  let pool :=
    if useDs then pool.modify conn fun c => { c with ds := ds }
    else pool.modify conn fun c => { c with buf := c.buf.write ds.data }
  pool.modify conn fun c => { c with stats := { c.stats with
    rxXacts := c.stats.rxXacts + env.rxXacts
    rxBytes := c.stats.rxBytes + UInt64.ofNat ds.data.length } }

/-- One pass from `read_again`, with `conn = &wrk->conn_pool[index]`. -/
def vtsWorkerReadAt (w : Worker) (index : Nat) (env : Env) (result : ReadResult) :
    Worker × List Call :=
  if index < w.connPool.length then
    match result with
    | .error connReset =>
        let pool := w.connPool.modify index fun c =>
          { c with stats := { c.stats with rxXacts := c.stats.rxXacts + env.rxXacts } }
        ({ w with connPool := pool, pc := if connReset then .fail else .epollWait }, [])
    | .message ds =>
        let pool := vtsConnReadAt useDs env w.connPool index ds
        let rxBytes := ds.data.length
        let fd := (deref V pool index).fd
        let read := if useDs then Call.readSegments fd rxBytes else .read fd rxBytes
        let expects := vtsConnExpectConfig (deref V pool index)
        let pool :=
          if expects then pool.modify index (vtsConnReadConfig V useDs) else pool
        if expects && hasMagic V (deref V pool index) then
          let freed := if useDs then [Call.freeSegments (deref V pool index).fd] else []
          let rxCfg := V.decode ((deref V pool index).buf.bytes.take V.cfgSize)
          let (pool, calls, nfds) := vtsHandleCfgAt V env pool w.nfds index rxCfg rxBytes
          (⟨pool, nfds, if nfds = 0 then .done else .epollWait⟩, read :: freed ++ calls)
        else if (deref V pool index).cfg.test = .uni || (deref V pool index).cfg.test = .bi then
          let (pool, calls) := vtsServerRxAt V useDs env pool index rxBytes
          (⟨pool, w.nfds, if env.nread then .readAgain index else .epollWait⟩, read :: calls)
        else if vtsConnHasAscii useDs (deref V pool index) then
          let (pool, calls) := vtsServerEchoAt V useDs env pool index rxBytes
          (⟨pool, w.nfds, .epollWait⟩, read :: calls)
        else (⟨pool, w.nfds, .epollWait⟩, [read])
  else ({ w with pc := .fault }, [])

section Records

variable {V useDs} {pool : List Conn}

/-- What a pointer to a record reads. -/
theorem deref_of_getElem? {i : Nat} {conn : Conn} (h : pool[i]? = some conn) :
    deref V pool i = conn := by
  unfold deref
  rw [List.getD_eq_getElem?_getD, h]
  rfl

theorem deref_eq_getD {i : Nat} (hi : i < pool.length) (conn : Conn) :
    deref V pool i = pool.getD i conn := by
  have hSlot := List.getElem?_eq_getElem hi
  rw [deref_of_getElem? hSlot, List.getD_eq_getElem?_getD, hSlot]
  rfl

variable {index : Nat} (hLt : index < pool.length)

include hLt

theorem modify_set (conn : Conn) (f : Conn → Conn) :
    (pool.set index conn).modify index f = pool.set index (f conn) := by
  rw [List.modify_eq_set_getElem?, List.getElem?_set_self hLt]
  exact List.set_set conn

theorem deref_set (conn : Conn) : deref V (pool.set index conn) index = conn :=
  deref_of_getElem? (List.getElem?_set_self hLt)

omit hLt in
theorem ite_set {c : Prop} [Decidable c] (conn conn' : Conn) :
    (if c then pool.set index conn else pool.set index conn') =
      pool.set index (if c then conn else conn') :=
  (apply_ite (pool.set index) c conn conn').symm

/-- On the shared pool the function changes its own record only, as it does
alone. -/
theorem syncConfigAndReplyAt_eq (env : Env) (conn : Conn) (rxCfg : VclTestCfg) :
    syncConfigAndReplyAt V env (pool.set index conn) index rxCfg =
      (let synced := syncConfigAndReply V env conn rxCfg
      (pool.set index synced.1, synced.2)) := by
  unfold syncConfigAndReplyAt syncConfigAndReply
  simp only [modify_set hLt, deref_set hLt]

/-- A round at another slot reads its record in the pool, one at the slot
itself reads what the rounds before it made of the record. -/
theorem accumulateSlotAt_eq (acc : Conn × List Call) {i : Nat} (hi : i < pool.length) :
    accumulateSlotAt V index (pool.set index acc.1, acc.2) i =
      (let acc := accumulateSlot V pool index acc i
      (pool.set index acc.1, acc.2)) := by
  obtain ⟨conn, calls⟩ := acc
  have hTc (c : Conn) : deref V (pool.set index c) i = if i = index then c else pool.getD i c := by
    by_cases hSelf : i = index
    · subst hSelf
      rw [if_pos rfl, deref_set hLt]
    · have hSlot : (pool.set index c)[i]? = pool[i]? := List.getElem?_set_ne (Ne.symm hSelf)
      rw [if_neg hSelf, deref_of_getElem? (hSlot.trans (List.getElem?_eq_getElem hi)),
        ← deref_eq_getD (V := V) hi, deref_of_getElem? (List.getElem?_eq_getElem hi)]
  unfold accumulateSlotAt accumulateSlot
  simp only [modify_set hLt, deref_set hLt, hTc, ite_set]
  split_ifs
  all_goals rfl

theorem foldl_accumulateSlotAt_eq {slots : List Nat} (hSlots : ∀ i ∈ slots, i < pool.length)
    (acc : Conn × List Call) :
    slots.foldl (accumulateSlotAt V index) (pool.set index acc.1, acc.2) =
      (let acc := slots.foldl (accumulateSlot V pool index) acc
      (pool.set index acc.1, acc.2)) := by
  induction slots generalizing acc with
  | nil => rfl
  | cons i rest ih =>
      rw [List.forall_mem_cons] at hSlots
      rw [List.foldl_cons, accumulateSlotAt_eq hLt acc hSlots.1, List.foldl_cons]
      exact ih hSlots.2 _

theorem vtsServerStartStopAt_eq (env : Env) (conn : Conn) (rxCfg : VclTestCfg) :
    vtsServerStartStopAt V env (pool.set index conn) index rxCfg =
      (let result := vtsServerStartStop V env pool index conn rxCfg
      (pool.set index result.1, result.2)) := by
  unfold vtsServerStartStopAt vtsServerStartStop
  have hFold := foldl_accumulateSlotAt_eq (V := V) hLt (fun i => List.mem_range.mp) (conn, [])
  simp only [deref_set hLt, List.length_set, hFold]
  generalize (List.range pool.length).foldl (accumulateSlot V pool index) (conn, []) = acc
  simp only [modify_set hLt, syncConfigAndReplyAt_eq hLt]
  split_ifs
  all_goals simp only [modify_set hLt, syncConfigAndReplyAt_eq hLt]

/-- A write counts in its own record. -/
theorem writeCountedAt_eq (env : Env) (conn : Conn) (data : Bytes) :
    writeCountedAt V env (pool.set index conn) index data =
      (let result := writeCounted env conn data
      (pool.set index result.1, result.2)) := by
  unfold writeCountedAt writeCounted
  simp only [modify_set hLt, deref_set hLt]

theorem vtsServerWriteBackAt_eq (env : Env) (conn : Conn) (rxBytes : Nat) :
    vtsServerWriteBackAt V useDs env (pool.set index conn) index rxBytes =
      (let result := vtsServerWriteBack useDs env conn rxBytes
      (pool.set index result.1, result.2)) := by
  unfold vtsServerWriteBackAt vtsServerWriteBack
  simp only [deref_set hLt, writeCountedAt_eq hLt]
  split_ifs
  all_goals rfl

theorem vtsServerRxAt_eq (env : Env) (conn : Conn) (rxBytes : Nat) :
    vtsServerRxAt V useDs env (pool.set index conn) index rxBytes =
      (let result := vtsServerRx useDs env conn rxBytes
      (pool.set index result.1, result.2)) := by
  unfold vtsServerRxAt vtsServerRx
  simp only [deref_set hLt, vtsServerWriteBackAt_eq hLt]
  by_cases hBi : conn.cfg.test = .bi
  · simp only [if_pos hBi, deref_set hLt, modify_set hLt]
    split_ifs
    all_goals rfl
  · simp only [if_neg hBi, deref_set hLt, modify_set hLt]
    split_ifs
    all_goals rfl

theorem vtsServerEchoAt_eq (env : Env) (conn : Conn) (rxBytes : Nat) :
    vtsServerEchoAt V useDs env (pool.set index conn) index rxBytes =
      (let result := vtsServerEcho useDs env conn rxBytes
      (pool.set index result.1, result.2)) := by
  unfold vtsServerEchoAt vtsServerEcho
  simp only [modify_set hLt, ite_set, deref_set hLt, writeCountedAt_eq hLt]

theorem vtsHandleCfgAt_eq (env : Env) (nfds : Int) (conn : Conn) (rxCfg : VclTestCfg)
    (rxBytes : Nat) :
    vtsHandleCfgAt V env (pool.set index conn) nfds index rxCfg rxBytes =
      (let result := vtsHandleCfg V env pool index nfds conn rxCfg rxBytes
      (pool.set index result.1, result.2)) := by
  unfold vtsHandleCfgAt vtsHandleCfg
  simp only [modify_set hLt, deref_set hLt, syncConfigAndReplyAt_eq hLt,
    vtsServerStartStopAt_eq hLt]
  split_ifs
  · rfl
  · cases rxCfg.test <;> rfl

/-- A read goes into its own record. -/
theorem vtsConnReadAt_eq (env : Env) (conn : Conn) (ds : Segments) :
    vtsConnReadAt useDs env (pool.set index conn) index ds =
      pool.set index (vtsConnRead useDs env conn ds) := by
  unfold vtsConnReadAt vtsConnRead
  simp only [modify_set hLt, ite_set]
  cases useDs <;> rfl

end Records

/-- The choice of `route` in the order of the loop, which looks for a config
in the buffer and goes on from there. -/
theorem route_looked (received : Conn) :
    route V useDs received =
      (let looked := if vtsConnExpectConfig received then vtsConnReadConfig V useDs received
        else received
      if vtsConnExpectConfig received && hasMagic V looked then .handleCfg
      else if looked.cfg.test = .uni || looked.cfg.test = .bi then .serverRx
      else if vtsConnHasAscii useDs looked then .serverEcho
      else .notDrained) := by
  have hTest : (vtsConnReadConfig V useDs received).cfg.test = received.cfg.test := by
    cases useDs <;> rfl
  unfold route
  cases vtsConnExpectConfig received with
  | true => simp only [if_true, hTest]
  | false => simp only [Bool.false_and, Bool.false_eq_true, if_false]

/-- What the worker writes through `conn` is the record of its slot, whose new
value and calls are those of the functions on one record. -/
theorem vtsWorkerReadAt_eq (w : Worker) (index : Nat) (env : Env) (result : ReadResult) :
    vtsWorkerReadAt V useDs w index env result = vtsWorkerRead V useDs w index env result := by
  unfold vtsWorkerReadAt vtsWorkerRead
  by_cases hLt : index < w.connPool.length
  · have hPool : w.connPool = w.connPool.set index w.connPool[index] := (List.set_getElem_self hLt).symm
    rw [if_pos hLt, List.getElem?_eq_getElem hLt]
    generalize w.connPool[index] = conn at hPool
    cases result with
    | error connReset =>
        dsimp only
        conv_lhs => rw [hPool, modify_set hLt]
    | message ds =>
        dsimp only
        conv_lhs => rw [hPool]
        simp only [vtsConnReadAt_eq hLt, modify_set hLt, ite_set, deref_set hLt]
        unfold vtsHandleMessage
        dsimp only
        rw [route_looked]
        dsimp only
        generalize vtsConnRead useDs env conn ds = received
        generalize (if vtsConnExpectConfig received then vtsConnReadConfig V useDs received
          else received) = looked
        by_cases hConfig : (vtsConnExpectConfig received && hasMagic V looked) = true
        · simp only [if_pos hConfig, vtsHandleCfgAt_eq hLt]
          rfl
        · by_cases hTest : (looked.cfg.test = .uni || looked.cfg.test = .bi) = true
          · simp only [if_neg hConfig, if_pos hTest, vtsServerRxAt_eq hLt]
            rfl
          · by_cases hAscii : vtsConnHasAscii useDs looked = true
            · simp only [if_neg hConfig, if_neg hTest, if_pos hAscii, vtsServerEchoAt_eq hLt]
              rfl
            · simp only [if_neg hConfig, if_neg hTest, if_neg hAscii]
              rfl
  · rw [if_neg hLt, List.getElem?_eq_none (by omega)]

section Isolation

def Server.stepAt (s : Server) (input : Input) : Worker × List Call :=
  match input with
  | .event ev nc => vtsWorkerEvent V s.worker ev nc
  | .read env result =>
      match s.worker.pc with
      | .readAgain i => vtsWorkerReadAt V useDs s.worker i env result
      | _ => (s.worker, [])

/-- The worker with its pool in memory. -/
def memory : Machine Server Input (List Call) where
  enabled := Server.Enabled useDs
  next s input := ⟨(s.stepAt V useDs input).1, (s.stepAt V useDs input).2.foldl Vcl.call s.vcl⟩
  output s input := (s.stepAt V useDs input).2

/-- It is the worker that handles one record at a time. -/
theorem memory_eq_server : memory V useDs = server V useDs := by
  have hStep : Server.stepAt V useDs = Server.step V useDs := by
    funext s input
    cases input with
    | event ev nc => rfl
    | read env result =>
        show (match s.worker.pc with
          | .readAgain i => vtsWorkerReadAt V useDs s.worker i env result
          | _ => (s.worker, [])) = _
        simp only [vtsWorkerReadAt_eq]
        rfl
  unfold memory server
  rw [hStep]

variable {V useDs}

/-- The slot a step is for: that of the event's tag, or the one a new client
is given. -/
def Server.slotOf (V : VclTestApi) (s : Server) : Input → Option Nat
  | .event ev nc =>
      if ev.hup || ev.rdhup then some ev.tag.index
      else
        match ev.tag with
        | .listener => (connPoolAlloc V s.worker.connPool nc.reallocOk).2
        | .client i => some i
  | .read _ _ =>
      match s.worker.pc with
      | .readAgain i => some i
      | _ => none

/-- Slots that no one has used, behind those of the pool. -/
def grown (V : VclTestApi) (pool : List Conn) (n : Nat) : List Conn :=
  pool ++ List.replicate n (freshConn V)

@[simp] theorem grown_zero (pool : List Conn) : grown V pool 0 = pool :=
  List.append_nil pool

theorem grown_old {pool : List Conn} {j : Nat} (n : Nat) (hj : j < pool.length) :
    (grown V pool n)[j]? = pool[j]? :=
  List.getElem?_append_left hj

/-- The records that are added are free. -/
theorem grown_new {pool : List Conn} {j n : Nat} (hj : pool.length ≤ j) :
    ∀ conn ∈ (grown V pool n)[j]?, conn.isAlloc = false := by
  intro conn hConn
  unfold grown at hConn
  rw [Option.mem_def, List.getElem?_append_right hj] at hConn
  obtain rfl := List.eq_of_mem_replicate (List.mem_of_getElem? hConn)
  rfl

/-- A new client leaves all slots but its own as they are, or as the expansion
made them. -/
theorem vtsNewClient_others (w : Worker) (nc : NewClient) :
    ∃ n, ∀ j, (connPoolAlloc V w.connPool nc.reallocOk).2 ≠ some j →
      (vtsNewClient V w nc).1.connPool[j]? = (grown V w.connPool n)[j]? := by
  unfold vtsNewClient
  rcases connPoolAlloc_cases V w.connPool nc.reallocOk with
    ⟨-, hAlloc⟩ | ⟨-, n, i, conn, hSlot, -, hAlloc⟩
  · rw [hAlloc]
    refine ⟨0, fun j _ => ?_⟩
    rw [grown_zero]
  · rw [hAlloc]
    refine ⟨n, fun j hOther => ?_⟩
    have hNe : i ≠ j := fun hEq => hOther (congrArg some hEq)
    have hTaken (conn : Conn) : ((grown V w.connPool n).set i conn)[j]? =
        (grown V w.connPool n)[j]? := List.getElem?_set_ne hNe
    have hModified (conn : Conn) (f : Conn → Conn) : (((grown V w.connPool n).set i conn).modify i f)[j]? =
        (grown V w.connPool n)[j]? := by
      rw [List.getElem?_modify_ne _ _ hNe, hTaken]
    dsimp only
    split_ifs
    · exact hTaken _
    · exact hModified _ _
    · exact hModified _ _

/-- Whatever a step is for, the slots it is not for keep their records, and
those added by an expansion are free. -/
theorem others_step (V : VclTestApi) (useDs : Bool) (s : Server) (input : Input) :
    ∃ n, ∀ j, s.slotOf V input ≠ some j →
      ((memory V useDs).next s input).worker.connPool[j]? = (grown V s.worker.connPool n)[j]? := by
  have hSame : ∀ j : Nat, s.worker.connPool[j]? = (grown V s.worker.connPool 0)[j]? := by
    intro j
    rw [grown_zero]
  cases input with
  | event ev nc =>
      show ∃ n, ∀ j, (if ev.hup || ev.rdhup then some ev.tag.index else _) ≠ some j →
        (vtsWorkerEvent V s.worker ev nc).1.connPool[j]? = _
      unfold vtsWorkerEvent
      by_cases hHangUp : (ev.hup || ev.rdhup) = true
      · refine ⟨0, fun j _ => ?_⟩
        rw [if_pos hHangUp]
        cases s.worker.connPool[ev.tag.index]? with
        | none => exact hSame j
        | some conn => exact hSame j
      · simp only [if_neg hHangUp]
        cases ev.tag with
        | listener => exact vtsNewClient_others s.worker nc
        | client i =>
            refine ⟨0, fun j _ => ?_⟩
            cases ev.epollin <;> exact hSame j
  | read env result =>
      refine ⟨0, fun j hOther => ?_⟩
      show (match s.worker.pc with
        | .readAgain i => vtsWorkerReadAt V useDs s.worker i env result
        | _ => (s.worker, [])).1.connPool[j]? = _
      unfold Server.slotOf at hOther
      cases hPc : s.worker.pc with
      | readAgain i =>
          rw [hPc] at hOther
          dsimp only
          rw [vtsWorkerReadAt_eq, slot_vtsWorkerRead fun hEq => hOther (congrArg some hEq)]
          exact hSame j
      | epollWait => exact hSame j
      | done => exact hSame j
      | fail => exact hSame j
      | fault => exact hSame j

/-- Connection isolation: a step for one slot leaves the record of every other
slot there was as it is, and the other slots an expansion adds are free. -/
theorem others_kept (s : Server) (input : Input) (j : Nat) (hOther : s.slotOf V input ≠ some j) :
    let pool := s.worker.connPool
    let pool' := ((memory V false).next s input).worker.connPool
    (j < pool.length → pool'[j]? = pool[j]?) ∧
      (pool.length ≤ j → ∀ conn ∈ pool'[j]?, conn.isAlloc = false) := by
  obtain ⟨n, hStep⟩ := others_step V false s input
  intro pool pool'
  have hSlot : pool'[j]? = (grown V pool n)[j]? := hStep j hOther
  rw [hSlot]
  exact ⟨grown_old n, grown_new⟩

/-- A second client comes to a pool of one slot, which is expanded to three. -/
theorem others_kept_expansion :
    let client (fd : Int32) : Input := .event ⟨.listener, false, false, true⟩ ⟨true, fd, 0, {}, []⟩
    let s := (memory packedApi false).run (.initial packedApi 1) [client 5]
    let pool' := ((memory packedApi false).next s (client 6)).worker.connPool
    pool'[0]? = s.worker.connPool[0]? ∧ ∀ conn ∈ pool'[2]?, conn.isAlloc = false := by
  intro client s pool'
  have hRun : s.slotOf packedApi (client 6) = some 1 ∧ s.worker.connPool.length = 1 := by
    decide +kernel
  obtain ⟨hSecond, hLength⟩ := hRun
  refine ⟨(others_kept s (client 6) 0 ?_).1 ?_, (others_kept s (client 6) 2 ?_).2 ?_⟩
  · rw [hSecond]
    decide
  · rw [hLength]
    decide
  · rw [hSecond]
    decide
  · rw [hLength]
    decide

/-- The same of a whole run: a slot keeps its record until a step for it. -/
theorem slot_run_of_others {s : Server} {inputs : List Input} {j : Nat} {conn : Conn}
    (hSlot : s.worker.connPool[j]? = some conn)
    (hOthers : (memory V false).Meets (fun s input => s.slotOf V input ≠ some j) s inputs) :
    ((memory V false).run s inputs).worker.connPool[j]? = some conn := by
  refine hOthers.invariant_run (I := fun s : Server => s.worker.connPool[j]? = some conn) ?_ hSlot
  intro s input hOther hSlot
  obtain ⟨n, hStep⟩ := others_step V false s input
  have hBelow : j < s.worker.connPool.length := (List.getElem?_eq_some_iff.mp hSlot).1
  exact (hStep j hOther).trans ((grown_old n hBelow).trans hSlot)

end Isolation

end DpdkPerf.VclTestServer
