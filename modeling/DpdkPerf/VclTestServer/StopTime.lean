import DpdkPerf.Machine.Latest
import DpdkPerf.VclTestServer.PoolAlloc
import DpdkPerf.VclTestServer.ServerResults
import Mathlib.Data.Prod.Lex

/-! The time at which a test stopped, as a worker finds it at the end of the
test in the records that carry the handle of its control connection. -/
namespace DpdkPerf.VclTestServer

/-- Of two times the earlier one is that with fewer seconds, or with fewer
nanoseconds in the same second. -/
instance : LinearOrder Timespec :=
  LinearOrder.lift' (fun t => toLex (t.tvSec, t.tvNsec)) fun t t' h => by
    cases t
    cases t'
    simpa using h

theorem before_iff_lt {t t' : Timespec} : t.Before t' ↔ t < t' := by
  show _ ↔ toLex (t.tvSec, t.tvNsec) < toLex (t'.tvSec, t'.tvNsec)
  rw [Prod.Lex.toLex_lt_toLex]
  rfl

/-- So many seconds earlier. -/
def Timespec.less (t : Timespec) (seconds : Int) : Timespec := { t with tvSec := t.tvSec - seconds }

/-- Taking seconds off keeps the order. -/
theorem strictMono_less (seconds : Int) : StrictMono fun t : Timespec => t.less seconds := by
  intro t t' h
  rw [← before_iff_lt] at h ⊢
  rcases h with hSec | ⟨hSec, hNsec⟩
  · exact Or.inl (Int.sub_lt_sub_right hSec seconds)
  · exact Or.inr ⟨congrArg (· - seconds) hSec, hNsec⟩

theorem less_lt {seconds : Int} (h : 0 < seconds) (t : Timespec) : t.less seconds < t :=
  before_iff_lt.mp (Or.inl (Int.sub_lt_self _ h))

section StopTime

variable (V : VclTestApi) (pool : List Conn) (c : Nat) (conn : Conn)

/-- The slots that carry the handle of the connection in slot `c`, its own
among them, in the order of the pool. -/
def carriers : List Nat :=
  (List.range pool.length).filter fun i =>
    (testConn V pool c i conn).cfg.ctrlHandle = conn.fd.toUInt32

/-- The stop times of those connections and of the control connection. -/
def carriedStops : Set Timespec :=
  { t | t = conn.stats.stop ∨
    ∃ i ∈ carriers V pool c conn, i ≠ c ∧ t = (deref V pool i).stats.stop }

/-- The stop time that a round compares with; in its own slot the control
connection is compared with itself. -/
def stopEntry (i : Nat) : Option Timespec :=
  if i = c then none else some (deref V pool i).stats.stop

variable {V pool c conn}

@[simp] theorem stop_accumulate (accum incr : VclTestStats) :
    (accum.accumulate incr).stop = accum.stop := rfl

theorem later_some (t t' : Timespec) : later t (some t') = if t.Before t' then t' else t := by
  show max t t' = _
  rw [max_def_lt]
  simp only [before_iff_lt]

/-- A round compares and moves the stop time back if its record carries the
handle. -/
theorem accumulateSlot_stop (acc : Conn × List Call) {i : Nat} (hi : i < pool.length) :
    (accumulateSlot V pool c acc i).1.stats.stop =
      if (testConn V pool c i acc.1).cfg.ctrlHandle = acc.1.fd.toUInt32 then
        (later acc.1.stats.stop (stopEntry V pool c i)).less V.delayDisconnect
      else acc.1.stats.stop := by
  obtain ⟨conn, calls⟩ := acc
  have hTc (conn' : Conn) : pool.getD i conn' = deref V pool i := (deref_eq_getD hi conn').symm
  unfold accumulateSlot stopEntry testConn
  simp only [hTc, ite_not, apply_ite Prod.fst, ite_self]
  by_cases hSelf : i = c
  · simp only [if_pos hSelf, stop_accumulate, before_iff_lt, lt_irrefl, if_false]
    split_ifs <;> rfl
  · simp only [if_neg hSelf, stop_accumulate, later_some]
    split_ifs <;> rfl

theorem testConn_cfg (i : Nat) (stats : VclTestStats) :
    (testConn V pool c i { conn with stats := stats }).cfg = (testConn V pool c i conn).cfg := by
  unfold testConn
  split_ifs <;> rfl

/-- The loop over the records is the one that moves its running value. -/
theorem foldl_accumulateSlot_stop {slots : List Nat} (hSlots : ∀ i ∈ slots, i < pool.length)
    (acc : Conn × List Call) :
    (slots.foldl (accumulateSlot V pool c) acc).1.stats.stop =
      latestMoved (fun t => t.less V.delayDisconnect) acc.1.stats.stop
        ((slots.filter fun i =>
          (testConn V pool c i acc.1).cfg.ctrlHandle = acc.1.fd.toUInt32).map
            (stopEntry V pool c)) := by
  induction slots generalizing acc with
  | nil => rfl
  | cons i rest ih =>
      rw [List.forall_mem_cons] at hSlots
      obtain ⟨stats, dumps, hRound, -⟩ := accumulateSlot_eq V pool c acc i
      have hStop := accumulateSlot_stop (V := V) (c := c) acc hSlots.1
      have hRest := ih hSlots.2 (accumulateSlot V pool c acc i)
      rw [hRound] at hStop hRest
      simp only [testConn_cfg] at hStop hRest
      rw [List.foldl_cons, hRound, hRest, hStop, List.filter_cons]
      simp only [decide_eq_true_eq]
      split_ifs <;> rfl

/-- What is printed as SERVER RESULTS has the stop time that the loop found. -/
theorem serverResults_stopTime (pool : List Conn) (env : Env) {rxCfg : VclTestCfg}
    (hStop : rxCfg.ctrlHandle = conn.fd.toUInt32) :
    ∃ stats, serverResults (vtsServerStartStop V env pool c conn rxCfg).2 = some stats ∧
      stats.stop = latestMoved (fun t => t.less V.delayDisconnect) conn.stats.stop
        ((carriers V pool c conn).map (stopEntry V pool c)) := by
  obtain ⟨stats, dumps, hFold, -, hDumps⟩ :=
    foldl_accumulateSlot_counter (V := V) (c := c) conn [] (Nat.le_refl pool.length)
  have hSlots : ∀ i ∈ List.range pool.length, i < pool.length := fun i hi => List.mem_range.mp hi
  have hFound := foldl_accumulateSlot_stop (V := V) (c := c) hSlots (conn, [])
  rw [hFold] at hFound
  refine ⟨stats, ?_, hFound⟩
  unfold vtsServerStartStop
  rw [if_pos hStop, hFold]
  dsimp only
  rw [List.nil_append, List.append_assoc]
  refine serverResults_append stats _ fun call hCall counters => ?_
  obtain ⟨fd, counters', rfl⟩ := hDumps call hCall
  exact nofun

/-- The latest stop time is that of the loop without the delay. -/
theorem isGreatest_carriedStops (V : VclTestApi) (pool : List Conn) (c : Nat) (conn : Conn) :
    IsGreatest (carriedStops V pool c conn)
      (latest conn.stats.stop ((carriers V pool c conn).map (stopEntry V pool c))) := by
  have hSet : carriedStops V pool c conn = { t | t = conn.stats.stop ∨
      some t ∈ (carriers V pool c conn).map (stopEntry V pool c) } := by
    ext t
    simp only [carriedStops, stopEntry, Set.mem_ofPred_eq, List.mem_map]
    refine or_congr_right (exists_congr fun i => and_congr_right fun _ => ?_)
    by_cases hSelf : i = c
    · simp [hSelf]
    · simp [hSelf, eq_comm]
  rw [hSet]
  exact isGreatest_latest ..

end StopTime

/-- The stop time that is printed for a STOP of the connection in slot `c` is
the latest of those it is to cover, with the delay of the client taken off
once. -/
def StopTimeExact (V : VclTestApi) (env : Env) (pool : List Conn) (c : Nat) (conn : Conn)
    (rxCfg : VclTestCfg) : Prop :=
  ∃ stats t, serverResults (vtsServerStartStop V env pool c conn rxCfg).2 = some stats ∧
    IsGreatest (carriedStops V pool c conn) t ∧ stats.stop = t.less V.delayDisconnect

/-- There is a last slot that carries the handle, and it is the only one, or
another connection's that stopped last of all. -/
def LastStopsLast (V : VclTestApi) (pool : List Conn) (c : Nat) (conn : Conn) : Prop :=
  ∃ before i, carriers V pool c conn = before ++ [i] ∧
    (before = [] ∨ i ≠ c ∧ ∀ t ∈ carriedStops V pool c conn, t ≤ (deref V pool i).stats.stop)

section Exact

variable {V : VclTestApi} {pool : List Conn} {c : Nat} {conn : Conn} {rxCfg : VclTestCfg}

/-- The stop time is exact if the loop that takes the delay off each time ends
one delay before the latest. -/
theorem stopTimeExact_iff_latest (env : Env) (hStop : rxCfg.ctrlHandle = conn.fd.toUInt32) :
    StopTimeExact V env pool c conn rxCfg ↔
      (let entries := (carriers V pool c conn).map (stopEntry V pool c)
      latestMoved (fun t => t.less V.delayDisconnect) conn.stats.stop entries =
        (latest conn.stats.stop entries).less V.delayDisconnect) := by
  obtain ⟨stats, hResults, hFound⟩ := serverResults_stopTime (V := V) pool (c := c) env hStop
  constructor
  · rintro ⟨stats', t, hResults', hGreatest, hEq⟩
    obtain rfl := Option.some.inj (hResults.symm.trans hResults')
    rw [hGreatest.unique (isGreatest_carriedStops ..)] at hEq
    exact hFound.symm.trans hEq
  · exact fun hEq => ⟨stats, _, hResults, isGreatest_carriedStops .., hFound.trans hEq⟩

/-- The delay is taken off in every round, so the printed stop time is right
exactly if the latest one is not moved a second time. -/
theorem stopTimeExact_iff (env : Env) (hDelay : 0 < V.delayDisconnect)
    (hStop : rxCfg.ctrlHandle = conn.fd.toUInt32) :
    StopTimeExact V env pool c conn rxCfg ↔ LastStopsLast V pool c conn := by
  rw [stopTimeExact_iff_latest env hStop]
  dsimp only
  rw [latestMoved_eq_iff (strictMono_less V.delayDisconnect) (less_lt hDelay)]
  have hGreatest := isGreatest_carriedStops V pool c conn
  constructor
  · rintro ⟨before, entry, hEntries, hLast⟩
    obtain ⟨slots, last, hSlots, hBefore, hEntry⟩ := List.map_eq_append_iff.mp hEntries
    obtain ⟨i, rfl, rfl⟩ := List.map_eq_singleton_iff.mp hEntry
    refine ⟨slots, i, hSlots, ?_⟩
    rcases hLast with rfl | hLatest
    · exact Or.inl (List.map_eq_nil_iff.mp hBefore)
    · right
      unfold stopEntry at hLatest
      split_ifs at hLatest with hSelf
      refine ⟨hSelf, fun t hMem => ?_⟩
      rw [Option.some.inj hLatest]
      exact hGreatest.2 hMem
  · rintro ⟨slots, i, hSlots, hLast⟩
    refine ⟨slots.map (stopEntry V pool c), stopEntry V pool c i, by simp [hSlots], ?_⟩
    rcases hLast with rfl | ⟨hOther, hAll⟩
    · exact Or.inl rfl
    · right
      have hCarried : (deref V pool i).stats.stop ∈ carriedStops V pool c conn :=
        Or.inr ⟨i, by simp [hSlots], hOther, rfl⟩
      rw [stopEntry, if_neg hOther]
      exact congrArg some (le_antisymm (hGreatest.2 hCarried) (hAll _ hGreatest.1))

/-- A connection of the test that stopped at this second. -/
def stoppedConn (fd : Int32) (second : Int) : Conn :=
  { zeroedConn with
    isAlloc := true, fd := fd, cfg := { defaultCfg with test := .uni, ctrlHandle := 5 }
    stats := { stop := ⟨second, 0⟩ } }

/-- The control connection, and one that stopped after it. -/
theorem stopTimeExact_iff_one :
    let control := stoppedConn 5 90
    let pool := [control, stoppedConn 6 100]
    let stop : VclTestCfg := { defaultCfg with test := .uni, ctrlHandle := 5 }
    StopTimeExact packedApi {} pool 0 control stop := by
  intro control pool stop
  refine (stopTimeExact_iff {} (by decide) (by decide)).mpr ⟨[0], 1, by decide, Or.inr ⟨by decide, ?_⟩⟩
  rintro t (rfl | ⟨i, hMem, hOther, rfl⟩)
  · exact (before_iff_lt.mp (by decide)).le
  · have hCarriers : carriers packedApi pool 0 control = [0, 1] := by decide
    rw [hCarriers] at hMem
    simp only [List.mem_cons, List.not_mem_nil, or_false, hOther, false_or] at hMem
    rw [hMem]

/-- Of two other connections the one in the earlier slot stopped last, at
second 100, and is said to have stopped at 98. -/
theorem not_stopTimeExact :
    let control := stoppedConn 5 0
    let pool := [control, stoppedConn 6 100, stoppedConn 7 50]
    let stop : VclTestCfg := { defaultCfg with test := .uni, ctrlHandle := 5 }
    ¬ StopTimeExact packedApi {} pool 0 control stop := by
  intro control pool stop
  rw [stopTimeExact_iff_latest {} (by decide)]
  decide +kernel

end Exact

end DpdkPerf.VclTestServer
