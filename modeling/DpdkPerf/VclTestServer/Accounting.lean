import DpdkPerf.VclTestServer.ConnPool
import DpdkPerf.VclTestServer.Effects
import DpdkPerf.VclTestServer.Layout

/-! The three counts a worker keeps: the slots in use, `nfds`, and the client
sessions it has accepted and not closed. -/
namespace DpdkPerf.VclTestServer

section Counting

variable {V : VclTestApi} {pool : List Conn} {i : Nat} {conn conn' : Conn}

/-- The slots in use. -/
def allocated (pool : List Conn) : Nat :=
  pool.countP Conn.isAlloc

/-- Fresh records are free. -/
theorem allocated_grow (n : Nat) :
    allocated (pool ++ List.replicate n (freshConn V)) = allocated pool := by
  have hFresh : ¬ (freshConn V).isAlloc = true := Bool.false_ne_true
  rw [allocated, List.countP_append, List.countP_replicate, if_neg hFresh, Nat.add_zero]
  rfl

/-- A record that is replaced counts for what replaces it. -/
theorem allocated_set (conn' : Conn) (hSlot : pool[i]? = some conn) :
    allocated (pool.set i conn') + (if conn.isAlloc then 1 else 0) =
      allocated pool + (if conn'.isAlloc then 1 else 0) := by
  obtain ⟨hLt, hGet⟩ := List.getElem?_eq_some_iff.mp hSlot
  have hPos : (if conn.isAlloc then 1 else 0) ≤ allocated pool := by
    rw [← hGet]
    exact List.boole_getElem_le_countP (p := Conn.isAlloc) hLt
  have hSet : allocated (pool.set i conn') =
      allocated pool - (if conn.isAlloc then 1 else 0) + (if conn'.isAlloc then 1 else 0) := by
    rw [← hGet]
    exact List.countP_set hLt
  omega

theorem allocated_keep (hSlot : pool[i]? = some conn) (hAlloc : conn'.isAlloc = conn.isAlloc) :
    allocated (pool.set i conn') = allocated pool := by
  have hSet := allocated_set conn' hSlot
  rw [hAlloc] at hSet
  omega

/-- A free record that is taken adds one. -/
theorem allocated_take (hSlot : pool[i]? = some conn) (hFree : conn.isAlloc = false)
    (hTaken : conn'.isAlloc = true) : allocated (pool.set i conn') = allocated pool + 1 := by
  have hSet := allocated_set conn' hSlot
  rw [hFree, hTaken] at hSet
  simpa using hSet

/-- An allocated one that is freed takes one away. -/
theorem allocated_release (hSlot : pool[i]? = some conn) (hAlloc : conn.isAlloc = true)
    (hFree : conn'.isAlloc = false) : allocated (pool.set i conn') + 1 = allocated pool := by
  have hSet := allocated_set conn' hSlot
  rw [hAlloc, hFree] at hSet
  simpa using hSet

end Counting

section Sessions

/-- A call that leaves the open and the watched sessions alone. -/
def Call.Neutral : Call → Prop
  | .accept _ | .epollAdd _ _ | .close _ => False
  | _ => True

theorem Call.Local.neutral {call : Call} (h : call.Local) : call.Neutral := by
  cases call <;> first | exact h | trivial

/-- Neutral calls leave the sessions and what is watched alone. -/
theorem foldl_call_neutral {calls : List Call} (vcl : Vcl) (h : ∀ call ∈ calls, call.Neutral) :
    calls.foldl Vcl.call vcl = vcl := by
  induction calls with
  | nil => rfl
  | cons call rest ih =>
      rw [List.forall_mem_cons] at h
      have hCall : vcl.call call = vcl := by
        cases call <;> first | rfl | exact h.1.elim
      rw [List.foldl_cons, hCall, ih h.2]

theorem neutral_freeCalls (useDs : Bool) (fd : Int32) :
    ∀ call ∈ freeCalls useDs fd, call.Neutral := by
  cases useDs with
  | false => exact fun _ h => absurd h List.not_mem_nil
  | true =>
      intro call hCall
      rw [List.mem_singleton.mp hCall]
      trivial

theorem neutral_readCall (useDs : Bool) (fd : Int32) (count : Nat) :
    (readCall useDs fd count).Neutral := by
  cases useDs <;> trivial

/-- A handled message changes the sessions only by the close of an EXIT. -/
theorem vcl_message {useDs : Bool} {conn : Conn} {nfds : Int} {count : Nat} {h : Handled}
    (vcl : Vcl) (hCalls : MessageCalls useDs conn nfds count h) :
    (h.conn.isAlloc = conn.isAlloc ∧ h.conn.fd = conn.fd ∧ h.nfds = nfds ∧
        h.calls.foldl Vcl.call vcl = vcl) ∨
      (h.route = .handleCfg ∧ h.conn.isAlloc = false ∧ h.nfds = nfds - 1 ∧
        h.calls.foldl Vcl.call vcl = vcl.call (.close conn.fd)) := by
  have hRead := neutral_readCall useDs conn.fd count
  have hFreed := neutral_freeCalls useDs conn.fd
  cases hCalls with
  | kept before after hKeeps hNfds hCalls =>
      refine Or.inl ⟨hKeeps.isAlloc, hKeeps.fd, hNfds, ?_⟩
      rw [hCalls]
      apply foldl_call_neutral
      intro call hCall
      have hLocal : call ∈ before ++ after → call.Neutral := fun h => (hKeeps.calls call h).neutral
      simp only [List.mem_cons, List.mem_append] at hCall hLocal
      rcases hCall with rfl | (hBefore | hFree) | hAfter
      · exact hRead
      · exact hLocal (Or.inl hBefore)
      · split_ifs at hFree
        · exact hFreed call hFree
        · exact absurd hFree List.not_mem_nil
      · exact hLocal (Or.inr hAfter)
  | closed hRoute hAlloc hNfds hCalls =>
      refine Or.inr ⟨hRoute, hAlloc, hNfds, ?_⟩
      have hQuiet : ∀ call ∈ readCall useDs conn.fd count ::
          (freeCalls useDs conn.fd ++ [.stopTime]), call.Neutral := by
        intro call hCall
        simp only [List.mem_cons, List.mem_append, List.not_mem_nil, or_false] at hCall
        rcases hCall with rfl | hFree | rfl
        · exact hRead
        · exact hFreed call hFree
        · trivial
      have hSplit : h.calls = (readCall useDs conn.fd count ::
          (freeCalls useDs conn.fd ++ [.stopTime])) ++ [.close conn.fd] := by
        rw [hCalls, List.cons_append, List.append_assoc]
        rfl
      rw [hSplit, List.foldl_append, foldl_call_neutral vcl hQuiet]
      rfl

end Sessions

section Registered

/-- What ties the worker to the library in every run, whatever fails: `nfds`
counts the watched sessions, and each of these is open and is the client of
the slot it is watched with. -/
structure Registered (pool : List Conn) (nfds : Int) (vcl : Vcl) : Prop where
  count : nfds = vcl.watched.length
  slot : ∀ fd i, (fd, i) ∈ vcl.watched →
    ∃ conn, pool[i]? = some conn ∧ conn.isAlloc = true ∧ conn.fd = fd
  isOpen : ∀ fd i, (fd, i) ∈ vcl.watched → fd ∈ vcl.sessions
  watchedNodup : (vcl.watched.map Prod.fst).Nodup
  sessionsNodup : vcl.sessions.Nodup

variable {V : VclTestApi} {pool pool' : List Conn} {nfds : Int} {vcl : Vcl} {i : Nat}
  {conn conn' : Conn} {fd : Int32}

/-- What changes neither owner nor allocation keeps the accounts. -/
theorem Registered.keep (h : Registered pool nfds vcl) (hSlot : pool[i]? = some conn)
    (hAlloc : conn'.isAlloc = conn.isAlloc) (hFd : conn'.fd = conn.fd) :
    Registered (pool.set i conn') nfds vcl where
  count := h.count
  slot fd j hWatched := by
    obtain ⟨old, hOld, hOldAlloc, hOldFd⟩ := h.slot fd j hWatched
    by_cases hEq : i = j
    · subst hEq
      rw [hSlot] at hOld
      obtain rfl := Option.some.inj hOld
      have hLt := (List.getElem?_eq_some_iff.mp hSlot).1
      exact ⟨conn', List.getElem?_set_self hLt, hAlloc.trans hOldAlloc, hFd.trans hOldFd⟩
    · rw [List.getElem?_set_ne hEq]
      exact ⟨old, hOld, hOldAlloc, hOldFd⟩
  isOpen := h.isOpen
  watchedNodup := h.watchedNodup
  sessionsNodup := h.sessionsNodup

theorem Registered.grow (h : Registered pool nfds vcl) (more : List Conn) :
    Registered (pool ++ more) nfds vcl where
  count := h.count
  slot fd j hWatched := by
    obtain ⟨old, hOld, hRest⟩ := h.slot fd j hWatched
    have hLt := (List.getElem?_eq_some_iff.mp hOld).1
    exact ⟨old, by rw [List.getElem?_append_left hLt, hOld], hRest⟩
  isOpen := h.isOpen
  watchedNodup := h.watchedNodup
  sessionsNodup := h.sessionsNodup

/-- No session is watched with a free slot, so the slot may be given away. -/
theorem Registered.take (h : Registered pool nfds vcl) (hSlot : pool[i]? = some conn)
    (hFree : conn.isAlloc = false) : Registered (pool.set i conn') nfds vcl where
  count := h.count
  slot fd j hWatched := by
    obtain ⟨old, hOld, hOldAlloc, hOldFd⟩ := h.slot fd j hWatched
    have hEq : i ≠ j := by
      rintro rfl
      rw [hSlot] at hOld
      obtain rfl := Option.some.inj hOld
      exact Bool.false_ne_true (hFree.symm.trans hOldAlloc)
    rw [List.getElem?_set_ne hEq]
    exact ⟨old, hOld, hOldAlloc, hOldFd⟩
  isOpen := h.isOpen
  watchedNodup := h.watchedNodup
  sessionsNodup := h.sessionsNodup

/-- A session that is accepted has no slot yet. -/
theorem Registered.accept (h : Registered pool nfds vcl) (hNew : fd ∉ vcl.sessions) :
    Registered pool nfds (vcl.call (.accept fd)) where
  count := h.count
  slot := h.slot
  isOpen fd' j hWatched := List.mem_cons_of_mem fd (h.isOpen fd' j hWatched)
  watchedNodup := h.watchedNodup
  sessionsNodup := List.nodup_cons.mpr ⟨hNew, h.sessionsNodup⟩

/-- A session that is watched has one, and is counted. -/
theorem Registered.watch (h : Registered pool nfds vcl) (hSlot : pool[i]? = some conn)
    (hAlloc : conn.isAlloc = true) (hNew : conn.fd ∉ vcl.sessions) :
    Registered pool (nfds + 1) ((vcl.call (.accept conn.fd)).call (.epollAdd conn.fd i)) where
  count := by
    rw [h.count]
    rfl
  slot fd j hWatched := by
    rcases List.mem_cons.mp hWatched with hEq | hOld
    · obtain ⟨hFd, rfl⟩ := Prod.mk.inj hEq
      exact ⟨conn, hSlot, hAlloc, hFd.symm⟩
    · exact h.slot fd j hOld
  isOpen fd j hWatched := by
    rcases List.mem_cons.mp hWatched with hEq | hOld
    · rw [(Prod.mk.inj hEq).1]
      exact List.mem_cons_self
    · exact List.mem_cons_of_mem _ (h.isOpen fd j hOld)
  watchedNodup := by
    refine List.nodup_cons.mpr ⟨fun hMem => ?_, h.watchedNodup⟩
    obtain ⟨⟨fd, j⟩, hWatched, rfl⟩ := List.mem_map.mp hMem
    exact hNew (h.isOpen _ j hWatched)
  sessionsNodup := List.nodup_cons.mpr ⟨hNew, h.sessionsNodup⟩

/-- A key that is there once is taken out once. -/
theorem length_filter_key {Key Value : Type*} [DecidableEq Key] {l : List (Key × Value)} {key : Key}
    {value : Value} (hNodup : (l.map Prod.fst).Nodup) (hMem : (key, value) ∈ l) :
    (l.filter fun entry => entry.1 ≠ key).length + 1 = l.length := by
  induction l with
  | nil => exact absurd hMem List.not_mem_nil
  | cons entry rest ih =>
      rw [List.map_cons, List.nodup_cons] at hNodup
      rcases List.mem_cons.mp hMem with rfl | hRest
      · have hOthers : ∀ entry ∈ rest, decide (entry.1 ≠ key) = true := by
          intro entry hEntry
          rw [decide_eq_true_eq]
          intro hEq
          exact hNodup.1 (List.mem_map.mpr ⟨entry, hEntry, hEq⟩)
        rw [List.filter_cons_of_neg (by simp), List.filter_eq_self.mpr hOthers, List.length_cons]
      · have hNe : entry.1 ≠ key := by
          intro hEq
          exact hNodup.1 (List.mem_map.mpr ⟨(key, value), hRest, hEq.symm⟩)
        rw [List.filter_cons_of_pos (by simpa using hNe), List.length_cons, List.length_cons,
          ih hNodup.2 hRest]

/-- The close of a watched session takes it out of every count, and no other
session is watched with its slot. -/
theorem Registered.close (h : Registered pool nfds vcl) (hWatched : (fd, i) ∈ vcl.watched)
    (hPool : ∀ j, j ≠ i → pool'[j]? = pool[j]?) :
    Registered pool' (nfds - 1) (vcl.call (.close fd)) where
  count := by
    have hFilter := length_filter_key h.watchedNodup hWatched
    have hCount := h.count
    change nfds - 1 = ((vcl.watched.filter fun entry => entry.1 ≠ fd).length : Int)
    omega
  slot fd' j hStill := by
    obtain ⟨hOld, hNe⟩ := List.mem_filter.mp hStill
    obtain ⟨old, hSlot, hAlloc, rfl⟩ := h.slot fd' j hOld
    have hOther : j ≠ i := by
      rintro rfl
      obtain ⟨same, hSame, -, rfl⟩ := h.slot fd j hWatched
      rw [hSlot] at hSame
      obtain rfl := Option.some.inj hSame
      simp at hNe
    exact ⟨old, by rw [hPool j hOther, hSlot], hAlloc, rfl⟩
  isOpen fd' j hStill := by
    obtain ⟨hOld, hNe⟩ := List.mem_filter.mp hStill
    have hNe : fd' ≠ fd := by simpa using hNe
    exact (List.mem_erase_of_ne hNe).mpr (h.isOpen fd' j hOld)
  watchedNodup := h.watchedNodup.sublist (List.filter_sublist.map Prod.fst)
  sessionsNodup := h.sessionsNodup.erase fd

end Registered

section Steps

variable (V : VclTestApi) (useDs : Bool)

/-- `nfds` is the number of slots in use, and that is the number of open
client sessions. -/
structure Accounted (pool : List Conn) (nfds : Int) (vcl : Vcl) : Prop where
  slots : nfds = allocated pool
  sessions : allocated pool = vcl.sessions.length

/-- What a step does to the slots, the count and the sessions: a client set
up, one that could not be accepted or watched, a message, an EXIT or a
hang-up. -/
inductive StepEffect (clean : Prop) (pool : List Conn) (nfds : Int) (vcl : Vcl) :
    List Conn → Int → Vcl → Prop where
  | same (hClean : clean) : StepEffect clean pool nfds vcl pool nfds vcl
  | message {i : Nat} {conn conn' : Conn} (hClean : clean) (hSlot : pool[i]? = some conn)
      (hAlloc : conn'.isAlloc = conn.isAlloc) (hFd : conn'.fd = conn.fd) :
      StepEffect clean pool nfds vcl (pool.set i conn') nfds vcl
  | exit {i : Nat} {conn conn' : Conn} (hClean : clean) (hSlot : pool[i]? = some conn)
      (hWatched : (conn.fd, i) ∈ vcl.watched) (hAlloc : conn.isAlloc = true)
      (hFree : conn'.isAlloc = false) :
      StepEffect clean pool nfds vcl (pool.set i conn') (nfds - 1) (vcl.call (.close conn.fd))
  | hangUp {i : Nat} {fd : Int32} (hUnclean : ¬ clean) (hWatched : (fd, i) ∈ vcl.watched) :
      StepEffect clean pool nfds vcl pool (nfds - 1) (vcl.call (.close fd))
  | notAccepted {n i : Nat} {conn conn' : Conn} (hUnclean : ¬ clean)
      (hSlot : (pool ++ List.replicate n (freshConn V))[i]? = some conn)
      (hFree : conn.isAlloc = false) (hTaken : conn'.isAlloc = true) :
      StepEffect clean pool nfds vcl
        ((pool ++ List.replicate n (freshConn V)).set i conn') nfds vcl
  | notWatched {n i : Nat} {conn conn' : Conn} (hUnclean : ¬ clean)
      (hSlot : (pool ++ List.replicate n (freshConn V))[i]? = some conn)
      (hFree : conn.isAlloc = false) (hTaken : conn'.isAlloc = true)
      (hNew : conn'.fd ∉ vcl.sessions) :
      StepEffect clean pool nfds vcl
        ((pool ++ List.replicate n (freshConn V)).set i conn') nfds (vcl.call (.accept conn'.fd))
  | client {n i : Nat} {conn conn' : Conn} (hClean : clean)
      (hSlot : (pool ++ List.replicate n (freshConn V))[i]? = some conn)
      (hFree : conn.isAlloc = false) (hTaken : conn'.isAlloc = true)
      (hNew : conn'.fd ∉ vcl.sessions) :
      StepEffect clean pool nfds vcl
        ((pool ++ List.replicate n (freshConn V)).set i conn') (nfds + 1)
        ((vcl.call (.accept conn'.fd)).call (.epollAdd conn'.fd i))

variable {V useDs} {clean : Prop} {pool pool' : List Conn} {nfds nfds' : Int} {vcl vcl' : Vcl}

/-- Whatever a step does, the accounts are kept. -/
theorem StepEffect.registered (hStep : StepEffect V clean pool nfds vcl pool' nfds' vcl')
    (h : Registered pool nfds vcl) : Registered pool' nfds' vcl' := by
  cases hStep with
  | same hClean => exact h
  | message hClean hSlot hAlloc hFd => exact h.keep hSlot hAlloc hFd
  | exit hClean hSlot hWatched hAlloc hFree =>
      exact h.close hWatched fun j hNe => List.getElem?_set_ne hNe.symm
  | hangUp hUnclean hWatched => exact h.close hWatched fun _ _ => rfl
  | notAccepted hUnclean hSlot hFree hTaken => exact (h.grow _).take hSlot hFree
  | notWatched hUnclean hSlot hFree hTaken hNew => exact ((h.grow _).take hSlot hFree).accept hNew
  | client hClean hSlot hFree hTaken hNew =>
      have hLt := (List.getElem?_eq_some_iff.mp hSlot).1
      exact ((h.grow _).take hSlot hFree).watch (List.getElem?_set_self hLt) hTaken hNew

/-- The counts agree after a step exactly if it is a clean one. -/
theorem StepEffect.accounted_iff (hStep : StepEffect V clean pool nfds vcl pool' nfds' vcl')
    (h : Registered pool nfds vcl) (hAccounted : Accounted pool nfds vcl) :
    Accounted pool' nfds' vcl' ↔ clean := by
  have hSlots := hAccounted.slots
  have hSessions := hAccounted.sessions
  cases hStep with
  | same hClean => exact iff_of_true hAccounted hClean
  | message hClean hSlot hAlloc hFd =>
      have hKeep := allocated_keep hSlot hAlloc
      exact iff_of_true ⟨by rw [hKeep, hSlots], by rw [hKeep, hSessions]⟩ hClean
  | exit hClean hSlot hWatched hAlloc hFree =>
      have hRelease := allocated_release hSlot hAlloc hFree
      have hErase := List.length_erase_add_one (h.isOpen _ _ hWatched)
      refine iff_of_true ⟨by omega, ?_⟩ hClean
      change _ = (vcl.sessions.erase _).length
      omega
  | hangUp hUnclean hWatched =>
      refine iff_of_false (fun hAfter => ?_) hUnclean
      have hAfterSlots := hAfter.slots
      omega
  | notAccepted hUnclean hSlot hFree hTaken =>
      refine iff_of_false (fun hAfter => ?_) hUnclean
      have hAfterSlots := hAfter.slots
      rw [allocated_take hSlot hFree hTaken, allocated_grow] at hAfterSlots
      omega
  | notWatched hUnclean hSlot hFree hTaken hNew =>
      refine iff_of_false (fun hAfter => ?_) hUnclean
      have hAfterSlots := hAfter.slots
      rw [allocated_take hSlot hFree hTaken, allocated_grow] at hAfterSlots
      omega
  | client hClean hSlot hFree hTaken hNew =>
      have hTake := allocated_take hSlot hFree hTaken
      rw [allocated_grow] at hTake
      refine iff_of_true ⟨by omega, ?_⟩ hClean
      change _ = vcl.sessions.length + 1
      omega

end Steps

section Runs

variable (V : VclTestApi) (useDs : Bool)

/-- A hang-up comes for a client session, not for the listener. -/
def Input.ClientHangUp : Input → Prop
  | .event ev _ => ev.tag = .listener → ev.hup = false ∧ ev.rdhup = false
  | .read _ _ => True

/-- The step is no hang-up, and it does not take a slot for a client that is
then not accepted or not watched. -/
def Server.Clean (s : Server) : Input → Prop
  | .event ev nc =>
      (ev.hup || ev.rdhup) = false ∧
        (ev.tag = .listener → CanAllocate s.worker.connPool nc.reallocOk →
          ¬ nc.clientFd < 0 ∧ ¬ nc.epollCtl < 0)
  | .read _ _ => True

instance (input : Input) : Decidable input.ClientHangUp :=
  match input with
  | .event _ _ => inferInstanceAs (Decidable (_ → _ ∧ _))
  | .read _ _ => .isTrue trivial

instance (s : Server) (input : Input) : Decidable (s.Clean input) :=
  match input with
  | .event _ _ => inferInstanceAs (Decidable (_ ∧ (_ → _ → _ ∧ _)))
  | .read _ _ => .isTrue trivial

def Server.Accounted (s : Server) : Prop :=
  VclTestServer.Accounted s.worker.connPool s.worker.nfds s.vcl

/-- The invariant of every run. A connection that is about to be read is
watched. -/
structure Server.Tracked (s : Server) : Prop where
  registered : Registered s.worker.connPool s.worker.nfds s.vcl
  reading : ∀ i, s.worker.pc = .readAgain i → ∃ fd, (fd, i) ∈ s.vcl.watched

variable {V useDs} {s : Server}

/-- The slot of a watched session, with the session as its client. -/
theorem Server.Tracked.slot (h : s.Tracked) {fd : Int32} {i : Nat}
    (hWatched : (fd, i) ∈ s.vcl.watched) :
    ∃ conn, s.worker.connPool[i]? = some conn ∧ conn.isAlloc = true ∧
      (conn.fd, i) ∈ s.vcl.watched := by
  obtain ⟨conn, hSlot, hAlloc, rfl⟩ := h.registered.slot fd i hWatched
  exact ⟨conn, hSlot, hAlloc, hWatched⟩

/-- A new client takes a free slot and is watched, or is left alone. -/
theorem stepEffect_newClient (hPc : s.worker.pc = .epollWait) (nc : NewClient)
    (hNew : ¬ nc.clientFd < 0 → nc.clientFd ∉ s.vcl.sessions) :
    let result := vtsNewClient V s.worker nc
    StepEffect V (CanAllocate s.worker.connPool nc.reallocOk →
          ¬ nc.clientFd < 0 ∧ ¬ nc.epollCtl < 0) s.worker.connPool s.worker.nfds s.vcl
        result.1.connPool result.1.nfds (result.2.foldl Vcl.call s.vcl) ∧
      result.1.pc = .epollWait := by
  intro result
  rcases vtsNewClient_cases V s.worker nc with
    ⟨hFull, hEq⟩ | ⟨hRoom, n, i, conn, hSlot, hFree, hEq⟩
  · have hResult : result = (s.worker, []) := hEq
    rw [hResult]
    exact ⟨.same fun hRoom => absurd hRoom hFull, hPc⟩
  · have hResult : result = _ := hEq
    rw [hResult]
    by_cases hAccept : nc.clientFd < 0
    · rw [if_pos hAccept]
      exact ⟨.notAccepted (fun hClean => (hClean hRoom).1 hAccept) hSlot hFree rfl, hPc⟩
    · rw [if_neg hAccept]
      by_cases hWatch : nc.epollCtl < 0
      · rw [if_pos hWatch]
        exact ⟨.notWatched (fun hClean => (hClean hRoom).2 hWatch) hSlot hFree rfl
          (hNew hAccept), hPc⟩
      · rw [if_neg hWatch]
        exact ⟨.client (fun _ => ⟨hAccept, hWatch⟩) hSlot hFree rfl (hNew hAccept), hPc⟩

/-- An event of the loop, unless it is a hang-up of the listener. -/
theorem stepEffect_event (h : s.Tracked) (ev : EpollEvent) (nc : NewClient)
    (hEnabled : s.Enabled useDs (.event ev nc)) (hHangUp : (Input.event ev nc).ClientHangUp) :
    let s' := (server V useDs).next s (.event ev nc)
    StepEffect V (s.Clean (.event ev nc)) s.worker.connPool s.worker.nfds s.vcl
        s'.worker.connPool s'.worker.nfds s'.vcl ∧
      ∀ i, s'.worker.pc = .readAgain i → ∃ fd, (fd, i) ∈ s'.vcl.watched := by
  obtain ⟨hPc, hTag, hNew⟩ := hEnabled
  obtain ⟨tag, hup, rdhup, epollin⟩ := ev
  intro s'
  cases tag with
  | listener =>
      obtain ⟨rfl, rfl⟩ := hHangUp rfl
      obtain ⟨hEffect, hPc'⟩ := stepEffect_newClient (V := V) hPc nc hNew
      have hClean : s.Clean (.event ⟨.listener, false, false, epollin⟩ nc) ↔
          (CanAllocate s.worker.connPool nc.reallocOk →
            ¬ nc.clientFd < 0 ∧ ¬ nc.epollCtl < 0) :=
        ⟨fun hClean => hClean.2 rfl, fun hClean => ⟨rfl, fun _ => hClean⟩⟩
      rw [hClean]
      refine ⟨hEffect, fun i hReading => ?_⟩
      exact absurd (hPc'.symm.trans hReading) (by simp)
  | client index =>
      obtain ⟨fd, hWatched⟩ := hTag index rfl
      cases hHung : hup || rdhup with
      | true =>
          obtain ⟨conn, hSlot, hAlloc, hConn⟩ := h.slot hWatched
          have hNext : vtsWorkerEvent V s.worker ⟨.client index, hup, rdhup, epollin⟩ nc =
              ({ s.worker with
                  nfds := s.worker.nfds - 1
                  pc := if s.worker.nfds - 1 = 0 then .done else .epollWait },
                [.close conn.fd]) := by
            unfold vtsWorkerEvent
            rw [if_pos hHung]
            simp only [Tag.index, hSlot]
          have hNextState : s' = ⟨_, _⟩ := congrArg (fun r : Worker × List Call =>
            (⟨r.1, r.2.foldl Vcl.call s.vcl⟩ : Server)) hNext
          rw [hNextState]
          refine ⟨.hangUp (fun hClean => ?_) hConn, fun i hReading => ?_⟩
          · exact Bool.false_ne_true (hClean.1.symm.trans hHung)
          · dsimp only at hReading
            split_ifs at hReading
      | false =>
          have hNext : vtsWorkerEvent V s.worker ⟨.client index, hup, rdhup, epollin⟩ nc =
              ({ s.worker with pc := if epollin then .readAgain index else .fail }, []) := by
            unfold vtsWorkerEvent
            rw [hHung]
            cases epollin <;> rfl
          have hNextState : s' = ⟨_, _⟩ := congrArg (fun r : Worker × List Call =>
            (⟨r.1, r.2.foldl Vcl.call s.vcl⟩ : Server)) hNext
          rw [hNextState]
          refine ⟨.same ⟨hHung, fun hTag => by cases hTag⟩, fun i hReading => ?_⟩
          cases epollin with
          | true =>
              obtain rfl : index = i := WorkerPc.readAgain.inj hReading
              exact ⟨fd, hWatched⟩
          | false => cases hReading

/-- A read may end in an EXIT, which gives its slot back. -/
theorem stepEffect_read (h : s.Tracked) (env : Env) (result : ReadResult)
    (hEnabled : s.Enabled useDs (.read env result)) :
    let s' := (server V useDs).next s (.read env result)
    StepEffect V (s.Clean (.read env result)) s.worker.connPool s.worker.nfds s.vcl
        s'.worker.connPool s'.worker.nfds s'.vcl ∧
      ∀ i, s'.worker.pc = .readAgain i → ∃ fd, (fd, i) ∈ s'.vcl.watched := by
  obtain ⟨i, hPc, -⟩ := hEnabled
  obtain ⟨fd, hWatched⟩ := h.reading i hPc
  obtain ⟨conn, hSlot, hAlloc, hConn⟩ := h.slot hWatched
  have hStep : s.step V useDs (.read env result) =
      vtsWorkerRead V useDs s.worker i env result := by
    rw [Server.step, hPc]
  intro s'
  have hNextState : s' = ⟨_, _⟩ := congrArg (fun r : Worker × List Call =>
    (⟨r.1, r.2.foldl Vcl.call s.vcl⟩ : Server)) hStep
  unfold vtsWorkerRead at hNextState
  rw [hSlot] at hNextState
  cases result with
  | error connReset =>
      rw [hNextState]
      refine ⟨.message trivial hSlot rfl rfl, fun j hReading => ?_⟩
      cases connReset <;> cases hReading
  | message ds =>
      have hCalls := messageCalls V useDs env s.worker.connPool i conn s.worker.nfds ds
      dsimp only at hNextState
      generalize vtsHandleMessage V useDs env s.worker.connPool i s.worker.nfds conn ds = handled
        at hCalls hNextState
      rw [hNextState]
      dsimp only
      rcases vcl_message s.vcl hCalls with
        ⟨hKeep, hFd, hNfds, hVcl⟩ | ⟨hRoute, hFree, hNfds, hVcl⟩
      · rw [hVcl, hNfds]
        refine ⟨.message trivial hSlot hKeep hFd, fun j hReading => ?_⟩
        obtain ⟨-, rfl⟩ := pcAfter_readAgain hReading
        exact ⟨fd, hWatched⟩
      · rw [hVcl, hNfds]
        refine ⟨.exit trivial hSlot hConn hAlloc hFree, fun j hReading => ?_⟩
        rw [(pcAfter_readAgain hReading).1] at hRoute
        cases hRoute

/-- Every step of the loop has such an effect. -/
theorem stepEffect (h : s.Tracked) (input : Input) (hEnabled : s.Enabled useDs input)
    (hHangUp : input.ClientHangUp) :
    let s' := (server V useDs).next s input
    StepEffect V (s.Clean input) s.worker.connPool s.worker.nfds s.vcl
        s'.worker.connPool s'.worker.nfds s'.vcl ∧
      ∀ i, s'.worker.pc = .readAgain i → ∃ fd, (fd, i) ∈ s'.vcl.watched := by
  cases input with
  | event ev nc => exact stepEffect_event h ev nc hEnabled hHangUp
  | read env result => exact stepEffect_read h env result hEnabled

theorem Server.Tracked.next (h : s.Tracked) (input : Input) (hEnabled : s.Enabled useDs input)
    (hHangUp : input.ClientHangUp) : ((server V useDs).next s input).Tracked := by
  obtain ⟨hEffect, hReading⟩ := stepEffect (V := V) h input hEnabled hHangUp
  exact ⟨hEffect.registered h.registered, hReading⟩

/-- There are no sessions at the start. -/
theorem tracked_initial (poolSize : Nat) : (Server.initial V poolSize).Tracked where
  registered :=
    { count := rfl
      slot := fun _ _ h => absurd h List.not_mem_nil
      isOpen := fun _ _ h => absurd h List.not_mem_nil
      watchedNodup := List.nodup_nil
      sessionsNodup := List.nodup_nil }
  reading := fun _ h => by cases h

theorem accounted_initial (poolSize : Nat) : (Server.initial V poolSize).Accounted := by
  have hNone : allocated (Server.initial V poolSize).worker.connPool = 0 := by
    change allocated ([] ++ List.replicate poolSize (freshConn V)) = 0
    rw [allocated_grow]
    rfl
  exact ⟨by rw [hNone]; rfl, hNone⟩

/-- In every run of the worker, whatever fails, `nfds` counts the watched
sessions, and each of them is open and the client of its slot. -/
theorem tracked_run {poolSize : Nat} {inputs : List Input}
    (hAdmits : (server V useDs).Admits (.initial V poolSize) inputs)
    (hHangUps : ∀ input ∈ inputs, input.ClientHangUp) :
    ((server V useDs).run (.initial V poolSize) inputs).Tracked := by
  have hMeets := hAdmits.and (Machine.meets_of_inputs hHangUps _)
  exact hMeets.invariant_run (fun s input hInput h => h.next input hInput.1 hInput.2)
    (tracked_initial poolSize)

/-- The three counts agree after every event of a run exactly if no step of
it is a hang-up, and every client that takes a slot is accepted and watched.
A hang-up closes the session and counts it off but leaves its slot in use,
and a client that fails to be set up leaves a slot in use too. -/
theorem accounted_iff_clean {poolSize : Nat} {inputs : List Input}
    (hAdmits : (server V useDs).Admits (.initial V poolSize) inputs)
    (hHangUps : ∀ input ∈ inputs, input.ClientHangUp) :
    (server V useDs).Always Server.Accounted (.initial V poolSize) inputs ↔
      (server V useDs).Meets Server.Clean (.initial V poolSize) inputs := by
  have hMeets := hAdmits.and (Machine.meets_of_inputs hHangUps _)
  refine hMeets.always_iff (P := Server.Accounted) (I := fun s => s.Tracked ∧ s.Accounted)
    ⟨tracked_initial poolSize, accounted_initial poolSize⟩ (fun _ h => h.2) ?_ ?_
  · intro s input hInput hClean h
    obtain ⟨hEffect, -⟩ := stepEffect (V := V) h.1 input hInput.1 hInput.2
    exact ⟨h.1.next input hInput.1 hInput.2,
      (hEffect.accounted_iff h.1.registered h.2).mpr hClean⟩
  · intro s input hInput hUnclean h hAfter
    obtain ⟨hEffect, -⟩ := stepEffect (V := V) h.1 input hInput.1 hInput.2
    exact hUnclean ((hEffect.accounted_iff h.1.registered h.2).mp hAfter)

/-- Two clients, of which the second sends an EXIT. -/
theorem accounted_iff_clean_exit :
    let exit : VclTestCfg := { defaultCfg with test := .exit }
    let inputs : List Input :=
      [.event ⟨.listener, false, false, true⟩ ⟨true, 5, 0, {}, []⟩,
        .event ⟨.listener, false, false, true⟩ ⟨true, 6, 0, {}, []⟩,
        .event ⟨.client 1, false, false, true⟩ ⟨true, 7, 0, {}, []⟩,
        .read {} (.message ⟨packedApi.encode exit, []⟩)]
    (server packedApi false).Always Server.Accounted (.initial packedApi 1) inputs := by
  intro exit inputs
  have hAdmits : (server packedApi false).Admits (.initial packedApi 1) inputs := by
    decide +kernel
  have hHangUps : ∀ input ∈ inputs, input.ClientHangUp := by decide
  have hClean : (server packedApi false).Meets Server.Clean (.initial packedApi 1) inputs := by
    decide +kernel
  exact (accounted_iff_clean hAdmits hHangUps).mpr hClean

/-- A client connects and hangs up: its slot is in use, `nfds` is zero. -/
theorem not_accounted :
    ¬ ∀ (poolSize : Nat) (inputs : List Input),
      (server packedApi false).Admits (.initial packedApi poolSize) inputs →
      (∀ input ∈ inputs, input.ClientHangUp) →
      (server packedApi false).Always Server.Accounted (.initial packedApi poolSize) inputs := by
  intro h
  let inputs : List Input :=
    [.event ⟨.listener, false, false, true⟩ ⟨true, 5, 0, {}, []⟩,
      .event ⟨.client 0, true, false, true⟩ ⟨true, 6, 0, {}, []⟩]
  have hAdmits : (server packedApi false).Admits (.initial packedApi 1) inputs := by
    decide +kernel
  have hHangUps : ∀ input ∈ inputs, input.ClientHangUp := by decide
  have hAccounted := (h 1 inputs hAdmits hHangUps).last
  have hSlots := hAccounted.slots
  have hNone : ((server packedApi false).run (.initial packedApi 1) inputs).worker.nfds = 0 := by
    decide +kernel
  have hOne : allocated ((server packedApi false).run (.initial packedApi 1)
      inputs).worker.connPool = 1 := by
    decide +kernel
  rw [hNone, hOne] at hSlots
  exact absurd hSlots (by decide)

end Runs

end DpdkPerf.VclTestServer
