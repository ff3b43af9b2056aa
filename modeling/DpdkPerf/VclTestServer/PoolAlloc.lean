import DpdkPerf.VclTestServer.ConnPool
import DpdkPerf.VclTestServer.Layout
import Mathlib.Logic.Relation

/-! `conn_pool_alloc` step by step: its scan, the expansion with the loop that
sets up the new slots, and the jump back to the scan. -/
namespace DpdkPerf.VclTestServer

variable (V : VclTestApi)

/-- A record of zero bytes, as `memset` leaves it. -/
def zeroedConn : Conn where
  isAlloc := false
  fd := 0
  buf := .empty
  cfg := ⟨0, 0, .none, 0, 0, 0, 0, 0, 0, 0⟩
  stats := {}
  endpt := {}
  ip := List.replicate 16 0
  ds := {}

/-- The body of the loop in `conn_pool_expand`. What the memory of the slot
held before does not matter. -/
def initSlot (_ : Conn) : Conn :=
  let conn := { zeroedConn with cfg := V.cfgInit }
  let (cfg, buf) := vclTestBufAlloc V conn.cfg conn.buf
  let conn := { conn with cfg := cfg, buf := buf }
  { conn with cfg := { conn.cfg with txbufSize := conn.cfg.rxbufSize } }

/-- What `realloc` did to the pool: it failed, or the old slots are followed
by new ones, with whatever their memory holds. -/
inductive Realloc where
  | failed
  | moved (raw : Nat → Conn)

def Realloc.ok : Realloc → Bool
  | .failed => false
  | .moved _ => true

/-- Where `conn_pool_alloc` stands, with the loop variable. -/
inductive AllocPc where
  | again (i : Nat)
  /-- Behind the scan. -/
  | scanned
  /-- In `conn_pool_expand`, which sets up the slots of the moved pool. -/
  | expand (i : Nat) (connPool : List Conn)
  | ret (slot : Option Nat)

/-- `scans` counts how often the scan was begun. -/
structure AllocState where
  connPool : List Conn
  expand : Bool
  scans : Nat
  pc : AllocPc

namespace AllocState

def start (pool : List Conn) : AllocState := ⟨pool, false, 1, .again 0⟩

/-- `expand = 1; goto again`. -/
def gotoAgain (s : AllocState) (pool : List Conn) : AllocState :=
  { connPool := pool, expand := true, scans := s.scans + 1, pc := .again 0 }

def step (realloc : Realloc) (s : AllocState) : AllocState :=
  match s.pc with
  | .again i =>
      match s.connPool[i]? with
      | some conn =>
          if conn.isAlloc then { s with pc := .again (i + 1) }
          else
            { s with connPool := s.connPool.set i { conn with isAlloc := true }, pc := .ret (some i) }
      | none => { s with pc := .scanned }
  | .scanned =>
      if s.expand then { s with pc := .ret none }
      else
        match realloc with
        | .failed => s.gotoAgain s.connPool
        | .moved raw =>
            let connPool := s.connPool ++ (List.range (2 * s.connPool.length)).map raw
            { s with pc := .expand s.connPool.length connPool }
  | .expand i connPool =>
      match connPool[i]? with
      | some conn => { s with pc := .expand (i + 1) (connPool.set i (initSlot V conn)) }
      | none => s.gotoAgain connPool
  | .ret _ => s

/-- The function runs on. -/
def Steps (realloc : Realloc) : AllocState → AllocState → Prop :=
  Relation.ReflTransGen fun s t => s.step V realloc = t

end AllocState

@[simp] theorem initSlot_eq (conn : Conn) : initSlot V conn = freshConn V := rfl

section Run

variable {V} {realloc : Realloc} {pool : List Conn} {expand : Bool} {scans i : Nat}

open AllocState

/-- The scan takes the first free record or goes on. -/
theorem step_again (realloc : Realloc) (pool : List Conn) (expand : Bool) (scans i : Nat) :
    AllocState.step V realloc ⟨pool, expand, scans, .again i⟩ =
      match pool[i]? with
      | some conn =>
          if conn.isAlloc then ⟨pool, expand, scans, .again (i + 1)⟩
          else ⟨pool.set i { conn with isAlloc := true }, expand, scans, .ret (some i)⟩
      | none => ⟨pool, expand, scans, .scanned⟩ := rfl

/-- The new records are initialised one by one, and then the scan starts again.
-/
theorem step_expand (connPool : List Conn) :
    AllocState.step V realloc ⟨pool, expand, scans, .expand i connPool⟩ =
      match connPool[i]? with
      | some _ => ⟨pool, expand, scans, .expand (i + 1) (connPool.set i (freshConn V))⟩
      | none => ⟨connPool, true, scans + 1, .again 0⟩ := rfl

/-- The scan takes the record behind taken ones. -/
theorem connPoolScan_of_first {conn : Conn} (hSlot : pool[i]? = some conn)
    (hFree : conn.isAlloc = false) (hBefore : ∀ j conn, j < i → pool[j]? = some conn →
      conn.isAlloc = true) :
    connPoolScan pool = some (pool.set i { conn with isAlloc := true }, i) := by
  obtain ⟨hLt, rfl⟩ := List.getElem?_eq_some_iff.mp hSlot
  have hFind : pool.findIdx? (fun conn => !conn.isAlloc) = some i := by
    rw [List.findIdx?_eq_some_iff_getElem]
    refine ⟨hLt, by simpa using hFree, fun j hj => ?_⟩
    simpa using hBefore j _ hj (List.getElem?_eq_getElem (hj.trans hLt))
  rw [connPoolScan, hFind]
  dsimp only
  rw [modify_of_getElem? _ hSlot]

/-- The scan from a slot on, when those before it are in use. -/
theorem scan_steps (hBefore : ∀ j conn, j < i → pool[j]? = some conn → conn.isAlloc = true) :
    Steps V realloc ⟨pool, expand, scans, .again i⟩
      (match connPoolScan pool with
        | some (pool', slot) => ⟨pool', expand, scans, .ret (some slot)⟩
        | none => ⟨pool, expand, scans, .scanned⟩) := by
  induction hLeft : pool.length - i generalizing i with
  | zero =>
      have hEnd : pool[i]? = none := List.getElem?_eq_none_iff.mpr (by omega)
      have hFull : connPoolScan pool = none := by
        rw [connPoolScan_eq_none]
        intro conn hMem
        obtain ⟨j, hj, rfl⟩ := List.getElem_of_mem hMem
        exact hBefore j _ (by omega) (List.getElem?_eq_getElem hj)
      rw [hFull]
      exact .single (by rw [step_again, hEnd])
  | succ left ih =>
      have hLt : i < pool.length := by omega
      have hSlot := List.getElem?_eq_getElem hLt
      have hStep := step_again (V := V) realloc pool expand scans i
      rw [hSlot] at hStep
      dsimp only at hStep
      cases hAlloc : pool[i].isAlloc with
      | false =>
          rw [hAlloc, if_neg Bool.false_ne_true] at hStep
          rw [connPoolScan_of_first hSlot hAlloc hBefore]
          exact .single hStep
      | true =>
          rw [hAlloc, if_pos rfl] at hStep
          refine .head hStep (ih (fun j conn hj hConn => ?_) (by omega))
          rcases Nat.lt_succ_iff_lt_or_eq.mp hj with hOld | rfl
          · exact hBefore j conn hOld hConn
          · rw [hSlot] at hConn
            obtain rfl := Option.some.inj hConn
            exact hAlloc

/-- The loop of `conn_pool_expand` sets up what is left of the moved pool. -/
theorem expand_steps (done rest : List Conn) :
    Steps V realloc ⟨pool, expand, scans, .expand done.length (done ++ rest)⟩
      ⟨done ++ List.replicate rest.length (freshConn V), true, scans + 1, .again 0⟩ := by
  induction rest generalizing done with
  | nil =>
      refine .single ?_
      rw [step_expand, List.getElem?_eq_none_iff.mpr (by simp)]
      simp
  | cons conn rest ih =>
      have hStep : AllocState.step V realloc
          ⟨pool, expand, scans, .expand done.length (done ++ conn :: rest)⟩ =
            ⟨pool, expand, scans,
              .expand (done ++ [freshConn V]).length ((done ++ [freshConn V]) ++ rest)⟩ := by
        rw [step_expand]
        simp
      have hRest := ih (done ++ [freshConn V])
      rw [List.append_assoc done _ (List.replicate ..), List.singleton_append,
        ← List.replicate_succ] at hRest
      exact .head hStep hRest

/-- The second scan is the last. -/
theorem second_steps :
    Steps V realloc ⟨pool, true, scans, .again 0⟩
      (match connPoolScan pool with
        | some (pool', slot) => ⟨pool', true, scans, .ret (some slot)⟩
        | none => ⟨pool, true, scans, .ret none⟩) := by
  have hScan : Steps V realloc ⟨pool, true, scans, .again 0⟩ _ :=
    scan_steps fun j conn hj => absurd hj (Nat.not_lt_zero j)
  cases hFound : connPoolScan pool with
  | some found =>
      rw [hFound] at hScan
      exact hScan
  | none =>
      rw [hFound] at hScan
      exact hScan.tail rfl

/-- The function returns, after two scans at the most, and has done to the
pool what `connPoolAlloc` says. -/
theorem alloc_steps (V : VclTestApi) (pool : List Conn) (realloc : Realloc) :
    ∃ expand scans, scans ≤ 2 ∧ Steps V realloc (.start pool)
      ⟨(connPoolAlloc V pool realloc.ok).1, expand, scans,
        .ret (connPoolAlloc V pool realloc.ok).2⟩ := by
  have hScan : Steps V realloc (.start pool) _ :=
    scan_steps fun j conn hj => absurd hj (Nat.not_lt_zero j)
  unfold connPoolAlloc
  cases hFound : connPoolScan pool with
  | some found =>
      rw [hFound] at hScan
      exact ⟨false, 1, by decide, hScan⟩
  | none =>
      rw [hFound] at hScan
      have hSecond : Steps V realloc ⟨pool, false, 1, .scanned⟩
          ⟨connPoolExpand V pool (2 * pool.length) realloc.ok, true, 2, .again 0⟩ := by
        cases realloc with
        | failed => exact .single rfl
        | moved raw =>
            have hRaw : Steps V (.moved raw) ⟨pool, false, 1, .expand pool.length _⟩ _ :=
              expand_steps pool ((List.range (2 * pool.length)).map raw)
            rw [List.length_map, List.length_range] at hRaw
            exact .head rfl hRaw
      have hLast := hScan.trans (hSecond.trans second_steps)
      refine ⟨true, 2, le_rfl, ?_⟩
      dsimp only
      cases hAgain : connPoolScan (connPoolExpand V pool (2 * pool.length) realloc.ok) with
      | some found =>
          rw [hAgain] at hLast
          exact hLast
      | none =>
          rw [hAgain] at hLast
          exact hLast

/-- A slot that `conn_pool_alloc` could take. -/
def FreeSlot (pool : List Conn) (i : Nat) : Prop :=
  ∃ conn, pool[i]? = some conn ∧ conn.isAlloc = false

/-- What an allocation that returned `slot` is to have done to the pool. -/
structure Allocates (realloc : Realloc) (pool pool' : List Conn) (slot : Option Nat) : Prop where
  lowest : ∀ i, FreeSlot pool i → (∀ j < i, ¬ FreeSlot pool j) →
    slot = some i ∧ pool'.length = pool.length
  grown : (∀ i, ¬ FreeSlot pool i) → realloc.ok = true →
    slot = some pool.length ∧ pool'.length = 3 * pool.length
  null : (∀ i, ¬ FreeSlot pool i) → realloc.ok = false → slot = none
  /-- The slot was free, and is not any more. -/
  taken : ∀ i, slot = some i → ∃ before, pool <+: before ∧ FreeSlot before i ∧
    pool' = before.modify i fun conn => { conn with isAlloc := true }
  others : ∀ i j, slot = some i → j ≠ i → j < pool.length → pool'[j]? = pool[j]?
  added : ∀ i j, slot = some i → j ≠ i → pool.length ≤ j → j < pool'.length → FreeSlot pool' j
  failed : slot = none → pool' = pool

theorem connPoolScan_lowest {pool' : List Conn} (h : connPoolScan pool = some (pool', i)) :
    FreeSlot pool i ∧ (∀ j < i, ¬ FreeSlot pool j) ∧
      pool' = pool.modify i fun conn => { conn with isAlloc := true } := by
  unfold connPoolScan at h
  cases hFind : pool.findIdx? fun conn => !conn.isAlloc with
  | none => simp [hFind] at h
  | some k =>
      rw [hFind] at h
      obtain ⟨rfl, rfl⟩ := Prod.mk.inj (Option.some.inj h)
      obtain ⟨hLt, hFree, hBefore⟩ := List.findIdx?_eq_some_iff_getElem.mp hFind
      refine ⟨⟨_, List.getElem?_eq_getElem hLt, by simpa using hFree⟩, ?_, rfl⟩
      rintro j hj ⟨conn, hSlot, hOther⟩
      obtain ⟨hLess, rfl⟩ := List.getElem?_eq_some_iff.mp hSlot
      have hUsed := hBefore j hj
      simp [hOther] at hUsed

theorem not_freeSlot (h : connPoolScan pool = none) : ¬ FreeSlot pool i := by
  rintro ⟨conn, hSlot, hFree⟩
  rw [connPoolScan_eq_none.mp h conn (List.mem_of_getElem? hSlot)] at hFree
  cases hFree

/-- The first scan finds a slot. -/
theorem allocates_first {pool' : List Conn} (h : connPoolScan pool = some (pool', i)) :
    Allocates realloc pool pool' (some i) := by
  obtain ⟨hFree, hBefore, rfl⟩ := connPoolScan_lowest h
  constructor
  · intro k hFreeK hBeforeK
    rcases Nat.lt_trichotomy i k with hLt | rfl | hGt
    · exact absurd hFree (hBeforeK i hLt)
    · exact ⟨rfl, List.length_modify ..⟩
    · exact absurd hFreeK (hBefore k hGt)
  · exact fun hNone => absurd hFree (hNone i)
  · exact fun hNone => absurd hFree (hNone i)
  · intro k hEq
    obtain rfl := Option.some.inj hEq
    exact ⟨pool, List.prefix_rfl, hFree, rfl⟩
  · intro k j hEq hOther _
    obtain rfl := Option.some.inj hEq
    exact List.getElem?_modify_ne _ _ (Ne.symm hOther)
  · intro k j _ _ hOld hNew
    rw [List.length_modify] at hNew
    omega
  · exact nofun

/-- The second scan finds the first of the new slots. -/
theorem allocates_second {pool' : List Conn} (hFull : connPoolScan pool = none)
    (hOk : realloc.ok = true)
    (h : connPoolScan (pool ++ List.replicate (2 * pool.length) (freshConn V)) = some (pool', i)) :
    Allocates realloc pool pool' (some i) := by
  have hNone (k : Nat) : ¬ FreeSlot pool k := not_freeSlot hFull
  obtain ⟨hFree, hBefore, rfl⟩ := connPoolScan_lowest h
  have hNew {j : Nat} (hOld : pool.length ≤ j) (hj : j < 3 * pool.length) :
      (pool ++ List.replicate (2 * pool.length) (freshConn V))[j]? = some (freshConn V) := by
    rw [List.getElem?_append_right hOld, List.getElem?_replicate_of_lt (by omega)]
  have hLength : (pool ++ List.replicate (2 * pool.length) (freshConn V)).length =
      3 * pool.length := by
    rw [List.length_append, List.length_replicate]
    omega
  have hFirst : i = pool.length := by
    obtain ⟨conn, hSlot, hIdle⟩ := hFree
    have hLt := (List.getElem?_eq_some_iff.mp hSlot).1
    rcases Nat.lt_trichotomy i pool.length with hOld | hEq | hLater
    · rw [List.getElem?_append_left hOld] at hSlot
      exact absurd ⟨conn, hSlot, hIdle⟩ (hNone i)
    · exact hEq
    · exact absurd ⟨_, hNew le_rfl (by omega), rfl⟩ (hBefore _ hLater)
  constructor
  · exact fun k hFreeK => absurd hFreeK (hNone k)
  · exact fun _ _ => ⟨congrArg some hFirst, (List.length_modify ..).trans hLength⟩
  · intro _ hFailed
    rw [hOk] at hFailed
    cases hFailed
  · intro k hEq
    obtain rfl := Option.some.inj hEq
    exact ⟨_, List.prefix_append .., hFree, rfl⟩
  · intro k j hEq hOther hOld
    obtain rfl := Option.some.inj hEq
    rw [List.getElem?_modify_ne _ _ (Ne.symm hOther), List.getElem?_append_left hOld]
  · intro k j hEq hOther hOld hLt
    obtain rfl := Option.some.inj hEq
    rw [List.length_modify, hLength] at hLt
    exact ⟨freshConn V, (List.getElem?_modify_ne _ _ (Ne.symm hOther)).trans (hNew hOld hLt), rfl⟩
  · exact nofun

/-- The allocator finds a free slot, or makes one, or fails with the pool as it
was. -/
theorem connPoolAlloc_allocates (V : VclTestApi) (realloc : Realloc) (hSize : 0 < pool.length) :
    Allocates realloc pool (connPoolAlloc V pool realloc.ok).1
      (connPoolAlloc V pool realloc.ok).2 := by
  unfold connPoolAlloc
  cases hScan : connPoolScan pool with
  | some found => exact allocates_first hScan
  | none =>
      dsimp only
      cases hOk : realloc.ok with
      | true =>
          have hGrown : connPoolExpand V pool (2 * pool.length) true =
              pool ++ List.replicate (2 * pool.length) (freshConn V) := rfl
          rw [hGrown]
          cases hAgain : connPoolScan (pool ++ List.replicate (2 * pool.length) (freshConn V)) with
          | some found => exact allocates_second hScan hOk hAgain
          | none => exact absurd hAgain (connPoolScan_replicate V (by omega))
      | false =>
          have hSame : connPoolExpand V pool (2 * pool.length) false = pool := rfl
          have hNone (k : Nat) : ¬ FreeSlot pool k := not_freeSlot hScan
          rw [hSame, hScan]
          refine ⟨fun k hFree => absurd hFree (hNone k), fun _ hGrow => ?_, fun _ _ => rfl, nofun,
            nofun, nofun, fun _ => rfl⟩
          rw [hOk] at hGrow
          cases hGrow

/-- An allocation takes the lowest free slot, or the first of a pool grown
threefold, and leaves every other slot as it is; it looks through the pool
twice at the most. -/
theorem connPoolAlloc_spec (V : VclTestApi) (realloc : Realloc) (hSize : 0 < pool.length) :
    ∃ s slot, Steps V realloc (.start pool) s ∧ s.pc = .ret slot ∧ s.scans ≤ 2 ∧
      Allocates realloc pool s.connPool slot := by
  obtain ⟨expand, scans, hScans, hSteps⟩ := alloc_steps V pool realloc
  exact ⟨_, _, hSteps, rfl, hScans, connPoolAlloc_allocates V realloc hSize⟩

/-- A pool whose two slots are in use. -/
theorem connPoolAlloc_spec_full :
    let used : Conn := { zeroedConn with isAlloc := true }
    0 < [used, used].length ∧
      ∃ s slot, Steps packedApi (.moved fun _ => used) (.start [used, used]) s ∧ s.pc = .ret slot ∧
        s.scans ≤ 2 ∧ Allocates (.moved fun _ => used) [used, used] s.connPool slot :=
  ⟨by decide, connPoolAlloc_spec packedApi _ (by decide)⟩

end Run

end DpdkPerf.VclTestServer
