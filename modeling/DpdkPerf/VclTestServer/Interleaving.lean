import DpdkPerf.VclTestServer.Delivery

/-! One connection among the others. Whatever the worker does between two
messages of a client leaves the client's record as it was, up to counters that
nothing depends on, so that in copy mode the messages of a client are treated
as the protocol says in every run of the worker. -/
namespace DpdkPerf.VclTestServer

section Slot

variable {V : VclTestApi} {useDs : Bool} {i k : Nat} {w : Worker} {conn : Conn}

/-- A client is given a slot that is not in use. -/
theorem slot_vtsNewClient (hSlot : w.connPool[i]? = some conn) (hAlloc : conn.isAlloc = true)
    (nc : NewClient) : (vtsNewClient V w nc).1.connPool[i]? = some conn := by
  rcases vtsNewClient_cases V w nc with ⟨-, hEq⟩ | ⟨-, n, k, other, hOther, hFree, hEq⟩
  · rw [hEq]
    exact hSlot
  · have hGrown : (w.connPool ++ List.replicate n (freshConn V))[i]? = some conn := by
      rw [List.getElem?_append_left (List.getElem?_eq_some_iff.mp hSlot).1, hSlot]
    have hNe : k ≠ i := by
      intro hSame
      rw [hSame, hGrown] at hOther
      obtain rfl := Option.some.inj hOther
      rw [hAlloc] at hFree
      exact absurd hFree (by decide)
    rw [hEq]
    split_ifs
    all_goals exact (List.getElem?_set_ne hNe).trans hGrown

/-- A read of one connection leaves the others alone. -/
theorem slot_vtsWorkerRead (hNe : k ≠ i) (env : Env) (result : ReadResult) :
    (vtsWorkerRead V useDs w k env result).1.connPool[i]? = w.connPool[i]? := by
  unfold vtsWorkerRead
  cases w.connPool[k]? with
  | none => rfl
  | some other =>
      cases result with
      | error connReset => exact List.getElem?_set_ne hNe
      | message ds => exact List.getElem?_set_ne hNe

theorem length_vtsWorkerRead (env : Env) (result : ReadResult) :
    (vtsWorkerRead V useDs w k env result).1.connPool.length = w.connPool.length := by
  unfold vtsWorkerRead
  cases w.connPool[k]? with
  | none => rfl
  | some other =>
      cases result with
      | error connReset => exact List.length_set
      | message ds => exact List.length_set

/-- What a step can do to the pool. -/
theorem connPool_step (V : VclTestApi) (useDs : Bool) (s : Server) (input : Input) :
    (∃ env result k, input = .read env result ∧ s.worker.pc = .readAgain k ∧
        ((server V useDs).next s input).worker = (vtsWorkerRead V useDs s.worker k env result).1) ∨
      (∃ nc, ((server V useDs).next s input).worker.connPool =
        (vtsNewClient V s.worker nc).1.connPool) ∨
      ((server V useDs).next s input).worker.connPool = s.worker.connPool := by
  have hNext : ((server V useDs).next s input).worker = (s.step V useDs input).1 := rfl
  rw [hNext]
  cases input with
  | event ev nc =>
      unfold Server.step vtsWorkerEvent
      dsimp only
      by_cases hHangUp : (ev.hup || ev.rdhup) = true
      · rw [if_pos hHangUp]
        cases s.worker.connPool[ev.tag.index]? with
        | none => exact Or.inr (Or.inr rfl)
        | some conn => exact Or.inr (Or.inr rfl)
      · rw [if_neg hHangUp]
        cases ev.tag with
        | listener => exact Or.inr (Or.inl ⟨nc, rfl⟩)
        | client k => cases ev.epollin <;> exact Or.inr (Or.inr rfl)
  | read env result =>
      unfold Server.step
      dsimp only
      cases hPc : s.worker.pc with
      | readAgain k => exact Or.inl ⟨env, result, k, rfl, rfl, rfl⟩
      | epollWait => exact Or.inr (Or.inr rfl)
      | done => exact Or.inr (Or.inr rfl)
      | fail => exact Or.inr (Or.inr rfl)
      | fault => exact Or.inr (Or.inr rfl)

/-- The pool never shrinks. -/
theorem length_connPool_le (s : Server) (input : Input) :
    s.worker.connPool.length ≤ ((server V useDs).next s input).worker.connPool.length := by
  rcases connPool_step V useDs s input with ⟨env, result, k, -, -, hEq⟩ | ⟨nc, hEq⟩ | hEq
  · rw [hEq, length_vtsWorkerRead]
  · rw [hEq]
    rcases vtsNewClient_cases V s.worker nc with ⟨-, hNew⟩ | ⟨-, n, k, other, -, -, hNew⟩
    · rw [hNew]
    · rw [hNew]
      split_ifs
      all_goals simp
  · rw [hEq]

/-- A step that reads no message of the client leaves it as the protocol sees
it. -/
theorem slot_of_other {s : Server} {input : Input} (hSlot : s.worker.connPool[i]? = some conn)
    (hAlloc : conn.isAlloc = true) (hOther : s.clientRead i input = none) :
    ∃ conn', ((server V useDs).next s input).worker.connPool[i]? = some conn' ∧
      conn'.view = conn.view := by
  rcases connPool_step V useDs s input with ⟨env, result, k, rfl, hPc, hEq⟩ | ⟨nc, hEq⟩ | hEq
  · rw [hEq]
    by_cases hSame : k = i
    · subst hSame
      cases result with
      | error connReset =>
          unfold vtsWorkerRead
          rw [hSlot]
          exact ⟨_, List.getElem?_set_self (List.getElem?_eq_some_iff.mp hSlot).1, rfl⟩
      | message ds =>
          have hRead : s.clientRead k (.read env (.message ds)) = some ⟨env, ds⟩ := if_pos hPc
          rw [hRead] at hOther
          cases hOther
    · exact ⟨conn, (slot_vtsWorkerRead hSame env result).trans hSlot, rfl⟩
  · rw [hEq]
    exact ⟨conn, slot_vtsNewClient hSlot hAlloc nc, rfl⟩
  · rw [hEq]
    exact ⟨conn, hSlot, rfl⟩

/-- A step that reads a message of the client is one of its connection. -/
theorem next_of_clientRead {s : Server} {input : Input} {rx : Rx}
    (h : s.clientRead i input = some rx) :
    ((server V useDs).next s input).worker = (connection V useDs i).next s.worker rx := by
  obtain ⟨hPc, rfl⟩ := clientRead_eq_some.mp h
  change (s.step V useDs _).1 = _
  rw [Server.step, hPc]
  rfl

end Slot

section Runs

variable {V : VclTestApi} {i : Nat} {s : Server} {conn : Conn}

/-- What is handled for a client, step by step. -/
theorem clientHandled_cons (input : Input) (rest : List Input) :
    clientHandled V false i s (input :: rest) =
      ((s.clientRead i input).bind ((connection V false i).output s.worker)).toList ++
        clientHandled V false i ((server V false).next s input) rest := by
  unfold clientHandled
  rw [Machine.visits, List.filterMap_cons]
  cases (s.clientRead i input).bind ((connection V false i).output s.worker) <;> rfl

/-- In every run of the worker in copy mode, the messages of a client are
read and treated as the protocol says, until it leaves its slot. -/
theorem clientHandled_reaction {inputs : List Input} (hSlot : s.worker.connPool[i]? = some conn)
    (hAdmits : (server V false).Admits s inputs)
    (hServes : (server V false).Meets (Server.Serves i) s inputs)
    (hLong : ∀ rx ∈ clientReads V false i s inputs, 4 ≤ rx.msg.length) :
    let rxs := clientReads V false i s inputs
    (protocol V).Admits conn.view (rxs.map Rx.msg) ∧
      (clientHandled V false i s inputs).map Handled.reaction =
        List.zipWith (fun rx r => ⟨r.route, r.sent.map rx.env.written⟩) rxs
          ((protocol V).trace conn.view (rxs.map Rx.msg)) := by
  induction inputs generalizing s conn with
  | nil => exact ⟨Machine.admits_nil _, rfl⟩
  | cons input rest ih =>
      rw [Machine.admits_cons] at hAdmits
      rw [Machine.meets_cons] at hServes
      obtain ⟨conn', hSlot', hAlloc⟩ := hServes.1
      obtain rfl := Option.some.inj (hSlot.symm.trans hSlot')
      rw [clientReads_cons] at hLong
      rw [clientReads_cons, clientHandled_cons]
      cases hRead : s.clientRead i input with
      | none =>
          obtain ⟨next, hNext, hView⟩ := slot_of_other (V := V) hSlot hAlloc hRead
          rw [hRead] at hLong
          have hRest := ih hNext hAdmits.2 hServes.2 hLong
          rw [hView] at hRest
          exact hRest
      | some rx =>
          rw [hRead] at hLong
          obtain ⟨hRxLong, hRestLong⟩ := List.forall_mem_cons.mp hLong
          obtain ⟨hPc, rfl⟩ := clientRead_eq_some.mp hRead
          have hReceives : conn.view.Receives rx.msg := by
            obtain ⟨k, hPcK, hFits⟩ := hAdmits.1
            obtain rfl := WorkerPc.readAgain.inj (hPc.symm.trans hPcK)
            exact ⟨hAlloc, hRxLong, (hFits conn rx.ds hSlot rfl).2 rfl⟩
          obtain ⟨⟨next, hNextSlot, hView⟩, handled, hOutput, hReaction⟩ :=
            step_of_slot (V := V) hSlot hReceives
          rw [← next_of_clientRead hRead] at hNextSlot
          obtain ⟨hMore, hTrace⟩ := ih hNextSlot hAdmits.2 hServes.2 hRestLong
          rw [hView] at hMore hTrace
          refine ⟨(Machine.admits_cons ..).mpr ⟨hReceives, hMore⟩, ?_⟩
          rw [Option.bind_some, hOutput, Option.toList_some, Option.toList_some, List.singleton_append,
            List.singleton_append, List.map_cons, List.map_cons, hReaction, hTrace,
            Machine.trace_cons, List.zipWith_cons_cons]

end Runs

end DpdkPerf.VclTestServer
