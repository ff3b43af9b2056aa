import DpdkPerf.VclTestServer.Worker

/-! Allocation from the connection pool, and what a new-client event does
with the slot it is given. -/
namespace DpdkPerf.VclTestServer

variable (V : VclTestApi) {pool : List Conn}

/-- Some slot is free, or the pool can be made larger. -/
def CanAllocate (pool : List Conn) (ok : Bool) : Prop :=
  (∃ conn ∈ pool, conn.isAlloc = false) ∨ ok = true ∧ pool ≠ []

instance (ok : Bool) : Decidable (CanAllocate pool ok) :=
  inferInstanceAs (Decidable (_ ∨ _))

theorem modify_of_getElem? {α : Type*} {l : List α} {i : Nat} {a : α} (f : α → α)
    (h : l[i]? = some a) : l.modify i f = l.set i (f a) := by
  rw [List.modify_eq_set_getElem?, h]
  rfl

/-- The scan takes a free record. -/
theorem connPoolScan_some {pool' : List Conn} {i : Nat} (h : connPoolScan pool = some (pool', i)) :
    ∃ conn, pool[i]? = some conn ∧ conn.isAlloc = false ∧
      pool' = pool.set i { conn with isAlloc := true } := by
  unfold connPoolScan at h
  cases hFind : pool.findIdx? fun conn => !conn.isAlloc with
  | none => simp [hFind] at h
  | some j =>
      rw [hFind] at h
      obtain ⟨hLt, hFree, -⟩ := List.findIdx?_eq_some_iff_getElem.mp hFind
      have hSlot : pool[j]? = some pool[j] := List.getElem?_eq_getElem hLt
      obtain ⟨rfl, rfl⟩ := Prod.mk.inj (Option.some.inj h)
      refine ⟨pool[j], hSlot, by simpa using hFree, ?_⟩
      rw [modify_of_getElem? _ hSlot]

theorem connPoolScan_eq_none :
    connPoolScan pool = none ↔ ∀ conn ∈ pool, conn.isAlloc = true := by
  unfold connPoolScan
  cases hFind : pool.findIdx? fun conn => !conn.isAlloc with
  | none =>
      rw [List.findIdx?_eq_none_iff] at hFind
      simpa using hFind
  | some j =>
      obtain ⟨hLt, hFree, -⟩ := List.findIdx?_eq_some_iff_getElem.mp hFind
      refine iff_of_false (by simp) fun hAll => ?_
      rw [hAll _ (List.getElem_mem hLt)] at hFree
      exact absurd hFree (by decide)

theorem connPoolScan_replicate {n : Nat} (hn : 0 < n) :
    connPoolScan (pool ++ List.replicate n (freshConn V)) ≠ none := by
  intro h
  have hFresh : freshConn V ∈ pool ++ List.replicate n (freshConn V) :=
    List.mem_append_right _ (List.mem_replicate.mpr ⟨by omega, rfl⟩)
  exact Bool.false_ne_true (connPoolScan_eq_none.mp h _ hFresh)

/-- A slot that was free before or comes from the expansion is marked, unless
the pool is full and cannot grow. -/
theorem connPoolAlloc_cases (pool : List Conn) (ok : Bool) :
    (¬ CanAllocate pool ok ∧ connPoolAlloc V pool ok = (pool, none)) ∨
      CanAllocate pool ok ∧ ∃ n i conn,
        (pool ++ List.replicate n (freshConn V))[i]? = some conn ∧ conn.isAlloc = false ∧
        connPoolAlloc V pool ok =
          ((pool ++ List.replicate n (freshConn V)).set i { conn with isAlloc := true }, some i) := by
  unfold connPoolAlloc
  cases hScan : connPoolScan pool with
  | some found =>
      obtain ⟨pool', i⟩ := found
      obtain ⟨conn, hSlot, hFree, rfl⟩ := connPoolScan_some hScan
      refine Or.inr ⟨Or.inl ⟨conn, List.mem_of_getElem? hSlot, hFree⟩, 0, i, conn, ?_, hFree, ?_⟩
      · rw [List.replicate_zero, List.append_nil]
        exact hSlot
      · rw [List.replicate_zero, List.append_nil]
  | none =>
      have hFull := connPoolScan_eq_none.mp hScan
      have hNone : ¬ ∃ conn ∈ pool, conn.isAlloc = false := by
        rintro ⟨conn, hMem, hFree⟩
        rw [hFull conn hMem] at hFree
        exact absurd hFree (by decide)
      cases ok with
      | false =>
          refine Or.inl ⟨fun h => h.elim hNone fun h => absurd h.1 (by decide), ?_⟩
          simp [connPoolExpand, hScan]
      | true =>
          by_cases hEmpty : pool = []
          · refine Or.inl ⟨fun h => h.elim hNone fun h => h.2 hEmpty, ?_⟩
            rw [hEmpty]
            rfl
          · have hPos : 0 < 2 * pool.length := by
              have := List.length_pos_iff.mpr hEmpty
              omega
            have hGrown : connPoolExpand V pool (2 * pool.length) true =
                pool ++ List.replicate (2 * pool.length) (freshConn V) := rfl
            refine Or.inr ⟨Or.inr ⟨rfl, hEmpty⟩, 2 * pool.length, ?_⟩
            dsimp only
            rw [hGrown]
            cases hAgain : connPoolScan (pool ++ List.replicate (2 * pool.length) (freshConn V)) with
            | none => exact absurd hAgain (connPoolScan_replicate V hPos)
            | some found =>
                obtain ⟨pool', i⟩ := found
                obtain ⟨conn, hSlot, hFree, rfl⟩ := connPoolScan_some hAgain
                exact ⟨i, conn, hSlot, hFree, rfl⟩

/-- A new-client event on the slot it is given: the slot is taken before the
session is accepted, and counted after epoll watches it. -/
theorem vtsNewClient_cases (w : Worker) (nc : NewClient) :
    (¬ CanAllocate w.connPool nc.reallocOk ∧ vtsNewClient V w nc = (w, [])) ∨
      CanAllocate w.connPool nc.reallocOk ∧ ∃ n i conn,
        let grown := w.connPool ++ List.replicate n (freshConn V)
        let taken := { conn with
          isAlloc := true, fd := nc.clientFd, endpt := nc.endpt, ip := nc.ip }
        grown[i]? = some conn ∧ conn.isAlloc = false ∧
        vtsNewClient V w nc =
          if nc.clientFd < 0 then
            ({ w with connPool := grown.set i { conn with isAlloc := true } }, [])
          else if nc.epollCtl < 0 then
            ({ w with connPool := grown.set i taken }, [.accept nc.clientFd])
          else
            ({ w with connPool := grown.set i taken, nfds := w.nfds + 1 },
              [.accept nc.clientFd, .epollAdd nc.clientFd i]) := by
  unfold vtsNewClient
  rcases connPoolAlloc_cases V w.connPool nc.reallocOk with
    ⟨hFull, hAlloc⟩ | ⟨hRoom, n, i, conn, hSlot, hFree, hAlloc⟩
  · rw [hAlloc]
    exact Or.inl ⟨hFull, rfl⟩
  · have hLt := (List.getElem?_eq_some_iff.mp hSlot).1
    have hTaken : ((w.connPool ++ List.replicate n (freshConn V)).set i
        { conn with isAlloc := true })[i]? = some { conn with isAlloc := true } :=
      List.getElem?_set_self hLt
    rw [hAlloc]
    refine Or.inr ⟨hRoom, n, i, conn, hSlot, hFree, ?_⟩
    dsimp only
    rw [modify_of_getElem? _ hTaken, List.set_set]

end DpdkPerf.VclTestServer
