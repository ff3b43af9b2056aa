import DpdkPerf.VclTestServer.Accounting
import DpdkPerf.VclTestServer.PoolMemory
import Mathlib.Algebra.BigOperators.Group.Finset.Piecewise
import Mathlib.Data.UInt

/-! The counters a worker prints as SERVER RESULTS at the end of a test,
beside those of the connections that took part in it. -/
namespace DpdkPerf.VclTestServer

inductive Counter where
  | rxXacts | rxBytes | txXacts | txBytes
  deriving DecidableEq, Repr

def VclTestStats.counter (stats : VclTestStats) : Counter → UInt64
  | .rxXacts => stats.rxXacts
  | .rxBytes => stats.rxBytes
  | .txXacts => stats.txXacts
  | .txBytes => stats.txBytes

@[simp] theorem counter_accumulate (accum incr : VclTestStats) (k : Counter) :
    (accum.accumulate incr).counter k = accum.counter k + incr.counter k := by
  cases k <;> rfl

section Printed

variable (V : VclTestApi) (pool : List Conn) (c : Nat)

/-- The other slots, of the first `n`, whose record carries the handle. -/
def carriersBelow (n : Nat) (handle : UInt32) : Finset Nat :=
  (Finset.range n).filter fun i => i ≠ c ∧ (deref V pool i).cfg.ctrlHandle = handle

/-- The record a round looks at, given what the rounds before it made of
`conn`. -/
def testConn (i : Nat) (conn : Conn) : Conn :=
  if i = c then conn else deref V pool i

variable {V pool c}

/-- One round adds the counters of its record if that carries the handle. -/
theorem accumulateSlot_counter (acc : Conn × List Call) {i : Nat} (hi : i < pool.length) :
    ∃ stats dumps, accumulateSlot V pool c acc i =
        ({ acc.1 with stats := stats }, acc.2 ++ dumps) ∧
      (∀ k, stats.counter k = acc.1.stats.counter k +
        if (testConn V pool c i acc.1).cfg.ctrlHandle = acc.1.fd.toUInt32 then
          (testConn V pool c i acc.1).stats.counter k else 0) ∧
      ∀ call ∈ dumps, ∃ fd counters, call = .statsDump (some fd) counters := by
  obtain ⟨conn, calls⟩ := acc
  have hTc (conn' : Conn) : (if i = c then conn' else pool.getD i conn') =
      testConn V pool c i conn' := by
    rw [testConn, deref_eq_getD hi conn']
  unfold accumulateSlot
  simp only [hTc]
  by_cases hHandle : (testConn V pool c i conn).cfg.ctrlHandle = conn.fd.toUInt32
  · simp only [if_neg (not_not.mpr hHandle), if_pos hHandle]
    have hSum (stats : VclTestStats) (stop : Timespec) (k : Counter) :
        { stats with stop := stop }.counter k = stats.counter k := by
      cases k <;> rfl
    split_ifs
    all_goals first
      | exact ⟨_, _, rfl, fun k => by simp only [hSum, counter_accumulate],
          fun call hCall => ⟨_, _, List.mem_singleton.mp hCall⟩⟩
      | exact ⟨_, [], by rw [List.append_nil], fun k => by simp only [hSum, counter_accumulate],
          fun call hCall => absurd hCall List.not_mem_nil⟩
  · simp only [if_pos hHandle, if_neg hHandle, add_zero]
    exact ⟨conn.stats, [], by rw [List.append_nil], fun _ => rfl,
      fun call hCall => absurd hCall List.not_mem_nil⟩

theorem carriersBelow_succ_self (handle : UInt32) :
    carriersBelow V pool c (c + 1) handle = carriersBelow V pool c c handle := by
  unfold carriersBelow
  rw [Finset.range_add_one, Finset.filter_insert, if_neg fun h => h.1 rfl]

/-- Each other record adds its counters if it carries the handle. -/
theorem sum_carriersBelow_succ {n : Nat} (hn : n ≠ c) (handle : UInt32) (f : Nat → UInt64) :
    ∑ i ∈ carriersBelow V pool c (n + 1) handle, f i =
      (∑ i ∈ carriersBelow V pool c n handle, f i) +
        if (deref V pool n).cfg.ctrlHandle = handle then f n else 0 := by
  unfold carriersBelow
  rw [Finset.range_add_one, Finset.filter_insert]
  by_cases hCarries : (deref V pool n).cfg.ctrlHandle = handle
  · have hNew : n ∉ (Finset.range n).filter fun i => i ≠ c ∧ (deref V pool i).cfg.ctrlHandle = handle :=
      fun h => Finset.notMem_range_self (Finset.mem_filter.mp h).1
    rw [if_pos ⟨hn, hCarries⟩, if_pos hCarries, Finset.sum_insert hNew, add_comm]
  · rw [if_neg fun h => hCarries h.2, if_neg hCarries, add_zero]

/-- The loop adds the counters of every other record that carries the handle.
If the connection's own record carries it, what has come together up to its
own slot is added to itself. -/
theorem foldl_accumulateSlot_counter (conn : Conn) (calls : List Call) {n : Nat}
    (hn : n ≤ pool.length) :
    ∃ stats dumps, (List.range n).foldl (accumulateSlot V pool c) (conn, calls) =
        ({ conn with stats := stats }, calls ++ dumps) ∧
      (∀ k, stats.counter k = conn.stats.counter k +
        (∑ i ∈ carriersBelow V pool c n conn.fd.toUInt32, (deref V pool i).stats.counter k) +
        if c < n ∧ conn.cfg.ctrlHandle = conn.fd.toUInt32 then
          conn.stats.counter k +
            ∑ i ∈ carriersBelow V pool c c conn.fd.toUInt32, (deref V pool i).stats.counter k
        else 0) ∧
      ∀ call ∈ dumps, ∃ fd counters, call = .statsDump (some fd) counters := by
  induction n with
  | zero =>
      refine ⟨conn.stats, [], by rw [List.append_nil]; rfl, fun k => ?_,
        fun call hCall => absurd hCall List.not_mem_nil⟩
      rw [if_neg fun h => Nat.not_lt_zero c h.1, add_zero]
      exact (add_zero _).symm
  | succ n ih =>
      obtain ⟨stats, dumps, hFold, hStats, hDumps⟩ := ih (by omega)
      obtain ⟨stats', dumps', hRound, hStats', hDumps'⟩ :=
        accumulateSlot_counter (V := V) (c := c) ({ conn with stats := stats }, calls ++ dumps) hn
      refine ⟨stats', dumps ++ dumps', ?_, fun k => ?_, fun call hCall => ?_⟩
      · rw [List.range_succ, List.foldl_append, hFold, List.foldl_cons, List.foldl_nil, hRound,
          List.append_assoc]
      · have hRoundK := hStats' k
        by_cases hSelf : n = c
        · subst hSelf
          have hBefore : stats.counter k = conn.stats.counter k +
              ∑ i ∈ carriersBelow V pool n n conn.fd.toUInt32, (deref V pool i).stats.counter k := by
            rw [hStats k, if_neg fun h => Nat.lt_irrefl n h.1, add_zero]
          unfold testConn at hRoundK
          rw [if_pos rfl] at hRoundK
          rw [hRoundK, carriersBelow_succ_self, ← hBefore]
          simp only [Nat.lt_succ_self, true_and]
        · have hLater : c < n + 1 ↔ c < n := by omega
          unfold testConn at hRoundK
          rw [if_neg hSelf] at hRoundK
          rw [hRoundK, hStats k, sum_carriersBelow_succ hSelf]
          simp only [hLater]
          ac_rfl
      · rcases List.mem_append.mp hCall with h | h
        · exact hDumps call h
        · exact hDumps' call h

end Printed

section Ledger

variable (V : VclTestApi) (useDs : Bool) (c : Nat)

/-- The config of a BI or UNI message that is handled as one. -/
def Conn.testCfg (conn : Conn) (env : Env) (ds : Segments) : Option VclTestCfg :=
  let config := vtsConnReadConfig V useDs (vtsConnRead useDs env conn ds)
  let rxCfg := V.decode (config.buf.bytes.take V.cfgSize)
  if route V useDs (vtsConnRead useDs env conn ds) = .handleCfg ∧ ds.data.length = V.cfgSize ∧
      (rxCfg.test = .bi ∨ rxCfg.test = .uni) then some rxCfg
  else none

/-- The connections that belong to the test of a control connection: those
started with its handle since its last START. The counters of a connection are
in the record of its slot, and stay there after its EXIT until the slot is
given to another client. -/
structure Ledger where
  started : Finset Nat := ∅
  replaced : Counter → UInt64 := fun _ => 0

/-- A slot is given to a new client. -/
def Ledger.accept (l : Ledger) (pool : List Conn) (i : Nat) : Ledger :=
  if i = c then {}
  else if i ∈ l.started then
    { started := l.started.erase i
      replaced := fun k => l.replaced k + (deref V pool i).stats.counter k }
  else l

/-- The connection in a slot is sent a BI or UNI config. A START of the
control connection begins a new test. Another connection takes part if it is
started with the control connection's handle, and in no other case. -/
def Ledger.config (l : Ledger) (pool : List Conn) (i : Nat) (fd : Int32) (rxCfg : VclTestCfg) :
    Ledger :=
  if i = c then
    if rxCfg.ctrlHandle ≠ fd.toUInt32 ∧ rxCfg.ctrlHandle = 0xffffffff then {} else l
  else if rxCfg.ctrlHandle ≠ fd.toUInt32 ∧
      (startedCfg fd rxCfg).ctrlHandle = (deref V pool c).fd.toUInt32 then
    { l with started := insert i l.started }
  else { l with started := l.started.erase i }

def Ledger.next (l : Ledger) (s : Server) : Input → Ledger
  | .event ev nc =>
      if ev.hup || ev.rdhup then l
      else
        match ev.tag with
        | .listener =>
            match (connPoolAlloc V s.worker.connPool nc.reallocOk).2 with
            | some i => l.accept V c s.worker.connPool i
            | none => l
        | .client _ => l
  | .read _ (.error _) => l
  | .read env (.message ds) =>
      match s.worker.pc with
      | .readAgain i =>
          let conn := deref V s.worker.connPool i
          match conn.testCfg V useDs env ds with
          | some rxCfg => l.config V c s.worker.connPool i conn.fd rxCfg
          | none => l
      | _ => l

/-- The ledger of the connection in slot `c` after a run of the worker. -/
def ledger (s : Server) (inputs : List Input) : Ledger :=
  ((server V useDs).visits s inputs).foldl (fun l visit => l.next V useDs c visit.1 visit.2) {}

/-- What is printed as SERVER RESULTS. -/
def serverResults (calls : List Call) : Option VclTestStats :=
  calls.findSome? fun
    | .statsDump none stats => some stats
    | _ => none

/-- The next message is a STOP of the control connection in slot `c`. -/
structure Server.Stops (s : Server) (env : Env) (ds : Segments) (conn : Conn) (rxCfg : VclTestCfg) :
    Prop where
  pc : s.worker.pc = .readAgain c
  slot : s.worker.connPool[c]? = some conn
  config : conn.testCfg V useDs env ds = some rxCfg
  handle : rxCfg.ctrlHandle = conn.fd.toUInt32

/-- What the results of a test should be: the control connection's own
counters and those of each connection of the test, once. -/
def Ledger.expected (l : Ledger) (pool : List Conn) (own : VclTestStats) (k : Counter) : UInt64 :=
  own.counter k + (∑ i ∈ l.started, (deref V pool i).stats.counter k) + l.replaced k

/-- The counters of records that carry the handle but are not of the test,
and, if the control connection's own record carries it, what comes together up
to its slot. -/
def Ledger.overcounted (l : Ledger) (pool : List Conn) (conn : Conn) (own : VclTestStats)
    (k : Counter) : UInt64 :=
  let handle := conn.fd.toUInt32
  (∑ i ∈ carriersBelow V pool c pool.length handle \ l.started, (deref V pool i).stats.counter k) +
    if conn.cfg.ctrlHandle = handle then
      own.counter k + ∑ i ∈ carriersBelow V pool c c handle, (deref V pool i).stats.counter k
    else 0

/-- The counters of connections of the test whose record carries the handle no
more, or is another client's. -/
def Ledger.undercounted (l : Ledger) (pool : List Conn) (conn : Conn) (k : Counter) : UInt64 :=
  (∑ i ∈ l.started \ carriersBelow V pool c pool.length conn.fd.toUInt32,
    (deref V pool i).stats.counter k) + l.replaced k

end Ledger

section Results

variable {V : VclTestApi} {useDs : Bool} {c : Nat} {s : Server} {env : Env} {ds : Segments}
  {conn : Conn} {rxCfg : VclTestCfg}

/-- The results are printed once, and found wherever that is. -/
theorem serverResults_append {calls : List Call} (stats : VclTestStats) (more : List Call)
    (hCalls : ∀ call ∈ calls, ∀ stats, call ≠ .statsDump none stats) :
    serverResults (calls ++ .statsDump none stats :: more) = some stats := by
  unfold serverResults
  rw [List.findSome?_append, List.findSome?_eq_none_iff.mpr]
  · rfl
  · intro call hCall
    have hOther := hCalls call hCall
    cases call with
    | statsDump connection counters =>
        cases connection with
        | none => exact absurd rfl (hOther counters)
        | some fd => rfl
    | _ => rfl

/-- The printed counters of a STOP. -/
theorem serverResults_stop (hStop : s.Stops V useDs c env ds conn rxCfg) :
    ∃ stats, serverResults ((server V useDs).output s (.read env (.message ds))) = some stats ∧
      ∀ k, stats.counter k = (vtsConnRead useDs env conn ds).stats.counter k +
        (∑ i ∈ carriersBelow V s.worker.connPool c s.worker.connPool.length conn.fd.toUInt32,
          (deref V s.worker.connPool i).stats.counter k) +
        if conn.cfg.ctrlHandle = conn.fd.toUInt32 then
          (vtsConnRead useDs env conn ds).stats.counter k +
            ∑ i ∈ carriersBelow V s.worker.connPool c c conn.fd.toUInt32,
              (deref V s.worker.connPool i).stats.counter k
        else 0 := by
  obtain ⟨hPc, hSlot, hConfig, hHandle⟩ := hStop
  unfold Conn.testCfg at hConfig
  dsimp only at hConfig
  split_ifs at hConfig with hMessage
  obtain ⟨hRoute, hSize, hTest⟩ := hMessage
  obtain rfl := Option.some.inj hConfig
  have hLooked : ∃ looked, looked = vtsConnReadConfig V useDs (vtsConnRead useDs env conn ds) ∧
      looked.fd = conn.fd ∧ looked.cfg = conn.cfg ∧
      looked.stats = (vtsConnRead useDs env conn ds).stats := by
    refine ⟨_, rfl, ?_, ?_, ?_⟩
    all_goals cases useDs <;> rfl
  obtain ⟨looked, hEq, hFd, hCfg, hStats⟩ := hLooked
  have hOutput : (server V useDs).output s (.read env (.message ds)) =
      readCall useDs conn.fd ds.data.length :: freeCalls useDs conn.fd ++
        (vtsServerStartStop V env s.worker.connPool c looked
          (V.decode (looked.buf.bytes.take V.cfgSize))).2 := by
    show (s.step V useDs (.read env (.message ds))).2 = _
    unfold Server.step
    rw [hPc]
    dsimp only
    rw [vtsWorkerRead_message hSlot]
    dsimp only
    rw [vtsHandleMessage_handleCfg V useDs env _ c conn _ ds hRoute]
    dsimp only
    rw [← hEq] at hTest ⊢
    unfold vtsHandleCfg
    rw [if_neg (not_not.mpr hSize)]
    rcases hTest with hBi | hUni
    · rw [hBi]
    · rw [hUni]
  rw [← hEq] at hHandle
  obtain ⟨stats, dumps, hFold, hCounters, hDumps⟩ :=
    foldl_accumulateSlot_counter (V := V) (c := c) looked [] (Nat.le_refl s.worker.connPool.length)
  refine ⟨stats, ?_, fun k => ?_⟩
  · rw [hOutput]
    unfold vtsServerStartStop
    rw [hFd, if_pos hHandle, hFold]
    dsimp only
    rw [List.nil_append, List.append_assoc, List.singleton_append, ← List.append_assoc]
    refine serverResults_append stats _ fun call hCall counters => ?_
    rcases List.mem_append.mp hCall with hFirst | hDump
    · rcases List.mem_cons.mp hFirst with rfl | hFree
      · cases useDs <;> exact fun h => by cases h
      · cases useDs with
        | false => exact absurd hFree List.not_mem_nil
        | true =>
            rw [List.mem_singleton.mp hFree]
            exact fun h => by cases h
    · obtain ⟨fd, counters', rfl⟩ := hDumps call hDump
      exact fun h => by cases h
  · have hLt : c < s.worker.connPool.length := (List.getElem?_eq_some_iff.mp hSlot).1
    rw [hCounters k, hFd, hCfg, hStats]
    simp only [hLt, true_and]

/-- The record that a connection leaves behind stays as it is while the slot is
free, so that the counters of a closed connection are found there. -/
theorem left_record_kept {i : Nat} {input : Input} {left : Conn} (h : s.Tracked)
    (hEnabled : s.Enabled useDs input) (hSlot : s.worker.connPool[i]? = some left)
    (hFree : left.isAlloc = false)
    (hGiven : ∀ ev nc, input = .event ev nc → s.slotOf V input ≠ some i) :
    ((server V useDs).next s input).worker.connPool[i]? = some left := by
  have hOther : s.slotOf V input ≠ some i := by
    cases input with
    | event ev nc => exact hGiven ev nc rfl
    | read env result =>
        obtain ⟨k, hPc, -⟩ := hEnabled
        obtain ⟨fd, hWatched⟩ := h.reading k hPc
        obtain ⟨other, hOther, hAlloc, -⟩ := h.slot hWatched
        unfold Server.slotOf
        rw [hPc]
        rintro hEq
        obtain rfl := Option.some.inj hEq
        obtain rfl := Option.some.inj (hOther.symm.trans hSlot)
        exact absurd (hAlloc.symm.trans hFree) (by decide)
  obtain ⟨n, hStep⟩ := others_step V useDs s input
  rw [memory_eq_server] at hStep
  rw [hStep i hOther, grown_old n (List.getElem?_eq_some_iff.mp hSlot).1, hSlot]

/-- Two sums with parts in common are equal if the parts that are not are. -/
theorem add_sum_eq_iff (S T : Finset Nat) (f : Nat → UInt64) (a d e : UInt64) :
    a + (∑ i ∈ S, f i) + d = a + (∑ i ∈ T, f i) + e ↔
      (∑ i ∈ S \ T, f i) + d = (∑ i ∈ T \ S, f i) + e := by
  have hS : ∑ i ∈ S, f i = (∑ i ∈ S ∩ T, f i) + ∑ i ∈ S \ T, f i :=
    (Finset.sum_inter_add_sum_sdiff S T f).symm
  have hT : ∑ i ∈ T, f i = (∑ i ∈ S ∩ T, f i) + ∑ i ∈ T \ S, f i := by
    rw [Finset.inter_comm]
    exact (Finset.sum_inter_add_sum_sdiff T S f).symm
  rw [hS, hT]
  simp only [add_assoc]
  rw [add_right_inj, add_right_inj]

/-- The records that carry the handle are just those of the test, and none of
its slots has been given away. -/
def Ledger.Matches (l : Ledger) (V : VclTestApi) (c : Nat) (pool : List Conn) (conn : Conn) : Prop :=
  l.started = carriersBelow V pool c pool.length conn.fd.toUInt32 ∧ ∀ k, l.replaced k = 0

/-- Where the records with the handle are just those of the test, only the
control connection's own record is counted too often. -/
theorem overcounted_eq_undercounted_iff {l : Ledger} {pool : List Conn} {own : VclTestStats}
    (h : l.Matches V c pool conn) (k : Counter) :
    l.overcounted V c pool conn own k = l.undercounted V c pool conn k ↔
      (conn.cfg.ctrlHandle = conn.fd.toUInt32 → own.counter k +
        ∑ i ∈ carriersBelow V pool c c conn.fd.toUInt32, (deref V pool i).stats.counter k = 0) := by
  unfold Ledger.overcounted Ledger.undercounted
  dsimp only
  rw [h.1, h.2, sdiff_self, Finset.bot_eq_empty, Finset.sum_empty, add_zero, zero_add]
  by_cases hOwn : conn.cfg.ctrlHandle = conn.fd.toUInt32
  · rw [if_pos hOwn]
    exact ⟨fun h _ => h, fun h => h hOwn⟩
  · rw [if_neg hOwn]
    exact iff_of_true rfl fun h => absurd h hOwn

/-- After any history of the worker, the results printed for a STOP are the
exact sum if and only if, in each counter, what is counted too often is as
much as what is left out. Where the records with the handle are those of the
test, this says that the control connection's own record does not carry it, or
that nothing is counted up to its slot. -/
theorem results_exact_iff {poolSize : Nat} {history : List Input} :
    let s := (server V useDs).run (.initial V poolSize) history
    let l := ledger V useDs c (.initial V poolSize) history
    let own := (vtsConnRead useDs env conn ds).stats
    let exact := ∃ stats,
      serverResults ((server V useDs).output s (.read env (.message ds))) = some stats ∧
        ∀ k, stats.counter k = l.expected V s.worker.connPool own k
    s.Stops V useDs c env ds conn rxCfg →
      (l.Matches V c s.worker.connPool conn → (exact ↔
        (conn.cfg.ctrlHandle = conn.fd.toUInt32 → ∀ k, own.counter k +
          ∑ i ∈ carriersBelow V s.worker.connPool c c conn.fd.toUInt32,
            (deref V s.worker.connPool i).stats.counter k = 0))) ∧
      (exact ↔ ∀ k, l.overcounted V c s.worker.connPool conn own k =
        l.undercounted V c s.worker.connPool conn k) := by
  intro s l own exact hStop
  obtain ⟨stats, hResults, hCounters⟩ := serverResults_stop hStop
  have hExact (k : Counter) : stats.counter k = l.expected V s.worker.connPool own k ↔
      l.overcounted V c s.worker.connPool conn own k =
        l.undercounted V c s.worker.connPool conn k := by
    rw [hCounters k]
    exact add_sum_eq_iff _ _ _ _ _ _
  have hAll : exact ↔ ∀ k, l.overcounted V c s.worker.connPool conn own k =
      l.undercounted V c s.worker.connPool conn k := by
    constructor
    · rintro ⟨stats', hSame, hEq⟩ k
      obtain rfl := Option.some.inj (hResults.symm.trans hSame)
      exact (hExact k).mp (hEq k)
    · intro hEq
      exact ⟨stats, hResults, fun k => (hExact k).mpr (hEq k)⟩
  refine ⟨fun hMatches => ?_, hAll⟩
  rw [hAll]
  simp only [overcounted_eq_undercounted_iff hMatches]
  exact forall_comm

/-- A STOP of a control connection that was never sent a START: one other
connection was started with its handle and has received 20 bytes. -/
theorem results_exact_iff_unstarted :
    let uni : Bytes := packedApi.encode { defaultCfg with test := .uni, ctrlHandle := 5 }
    let client (fd : Int32) : Input := .event ⟨.listener, false, false, true⟩ ⟨true, fd, 0, {}, []⟩
    let readable (i : Nat) : Input := .event ⟨.client i, false, false, true⟩ ⟨true, 7, 0, {}, []⟩
    let history : List Input := [client 5, client 6, readable 1, .read {} (.message ⟨uni, []⟩),
      readable 1, .read {} (.message ⟨List.replicate 20 1, []⟩), readable 0]
    let s := (server packedApi false).run (.initial packedApi 2) history
    let own := (vtsConnRead false {} (deref packedApi s.worker.connPool 0) ⟨uni, []⟩).stats
    ∃ stats,
      serverResults ((server packedApi false).output s (.read {} (.message ⟨uni, []⟩))) = some stats ∧
        ∀ k, stats.counter k = (ledger packedApi false 0 (.initial packedApi 2) history).expected
          packedApi s.worker.connPool own k := by
  intro uni client readable history s own
  have hRun : s.worker.pc = .readAgain 0 ∧
      s.worker.connPool[0]?.map (fun conn => (conn.fd, conn.cfg.ctrlHandle)) =
        some (5, 0xffffffff) ∧
      (deref packedApi s.worker.connPool 0).testCfg packedApi false {} ⟨uni, []⟩ =
        some { defaultCfg with test := .uni, ctrlHandle := 5 } ∧
      (ledger packedApi false 0 (.initial packedApi 2) history).started =
        carriersBelow packedApi s.worker.connPool 0 s.worker.connPool.length 5 ∧
      ∀ k ∈ [Counter.rxXacts, .rxBytes, .txXacts, .txBytes],
        (ledger packedApi false 0 (.initial packedApi 2) history).replaced k = 0 := by
    decide +kernel
  obtain ⟨hPc, hConn, hConfig, hStarted, hReplaced⟩ := hRun
  obtain ⟨conn, hSlot, hEq⟩ := Option.map_eq_some_iff.mp hConn
  obtain ⟨hFd, hHandle⟩ := Prod.mk.inj hEq
  have hDeref : deref packedApi s.worker.connPool 0 = conn := deref_of_getElem? hSlot
  have hStop : s.Stops packedApi false 0 {} ⟨uni, []⟩ conn
      { defaultCfg with test := .uni, ctrlHandle := 5 } :=
    ⟨hPc, hSlot, by rw [← hDeref, hConfig], by rw [hFd]; rfl⟩
  have hOwn : own = (vtsConnRead false {} conn ⟨uni, []⟩).stats := by
    rw [← hDeref]
  have hMatches : (ledger packedApi false 0 (.initial packedApi 2) history).Matches packedApi 0
      s.worker.connPool conn := by
    refine ⟨?_, fun k => hReplaced k ?_⟩
    · rw [hStarted, hFd]
      rfl
    · cases k <;> decide
  rw [hOwn]
  refine ((results_exact_iff hStop).1 hMatches).mpr fun hCarries => ?_
  rw [hHandle, hFd] at hCarries
  exact absurd hCarries (by decide)

/-- One connection sends a START and a STOP, and no test is made: the 56 bytes
of the STOP are printed as 112. -/
theorem not_results_exact :
    ¬ ∀ (poolSize : Nat) (history : List Input) (c : Nat) (env : Env) (ds : Segments) (conn : Conn)
        (rxCfg : VclTestCfg),
      let s := (server packedApi false).run (.initial packedApi poolSize) history
      let l := ledger packedApi false c (.initial packedApi poolSize) history
      let own := (vtsConnRead false env conn ds).stats
      (server packedApi false).Admits (.initial packedApi poolSize)
        (history ++ [.read env (.message ds)]) →
      s.Stops packedApi false c env ds conn rxCfg →
      ∃ stats, serverResults ((server packedApi false).output s (.read env (.message ds))) = some stats ∧
        ∀ k, stats.counter k = l.expected packedApi s.worker.connPool own k := by
  intro h
  let uni (handle : UInt32) : Bytes :=
    packedApi.encode { defaultCfg with test := .uni, ctrlHandle := handle }
  let readable : Input := .event ⟨.client 0, false, false, true⟩ ⟨true, 7, 0, {}, []⟩
  let history : List Input := [.event ⟨.listener, false, false, true⟩ ⟨true, 5, 0, {}, []⟩,
    readable, .read {} (.message ⟨uni 0xffffffff, []⟩), readable]
  let stop : Input := .read {} (.message ⟨uni 5, []⟩)
  let s := (server packedApi false).run (.initial packedApi 1) history
  let l := ledger packedApi false 0 (.initial packedApi 1) history
  let conn := deref packedApi s.worker.connPool 0
  have hRun : (server packedApi false).Admits (.initial packedApi 1) (history ++ [stop]) ∧
      s.worker.pc = .readAgain 0 ∧ s.worker.connPool.length = 1 ∧ conn.fd = 5 ∧
      conn.testCfg packedApi false {} ⟨uni 5, []⟩ =
        some { defaultCfg with test := .uni, ctrlHandle := 5 } ∧
      (serverResults ((server packedApi false).output s stop)).map VclTestStats.rxBytes = some 112 ∧
      l.expected packedApi s.worker.connPool (vtsConnRead false {} conn ⟨uni 5, []⟩).stats .rxBytes =
        56 := by
    decide +kernel
  obtain ⟨hAdmits, hPc, hLength, hFd, hConfig, hPrinted, hExpected⟩ := hRun
  have hSlot : s.worker.connPool[0]? = some conn := by
    have hLt : 0 < s.worker.connPool.length := by
      rw [hLength]
      decide
    have hGet := List.getElem?_eq_getElem hLt
    rw [hGet, ← deref_of_getElem? (V := packedApi) hGet]
  obtain ⟨stats, hResults, hCounters⟩ := h 1 history 0 {} ⟨uni 5, []⟩ conn _ hAdmits
    ⟨hPc, hSlot, hConfig, by rw [hFd]; rfl⟩
  rw [hResults] at hPrinted
  have hBytes : stats.rxBytes = 56 := (hCounters .rxBytes).trans hExpected
  rw [Option.map_some, hBytes] at hPrinted
  exact absurd hPrinted (by decide)

end Results

end DpdkPerf.VclTestServer
