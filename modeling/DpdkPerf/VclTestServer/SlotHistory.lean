import DpdkPerf.VclTestServer.Interleaving
import DpdkPerf.VclTestServer.Layout
import DpdkPerf.VclTestServer.Leftover

/-! Whether the treatment of a new client depends on who had its slot before.
`conn_pool_free` leaves the config and the counters of a record as they are,
and `conn_pool_alloc` does not set them again, which `conn_pool_expand` does. -/
namespace DpdkPerf.VclTestServer

/-- What a run is given with a message: its bytes, and after how many bytes
the library stops writing. -/
def Rx.given (rx : Rx) : Bytes × Option Nat :=
  (rx.msg, rx.env.txLimit)

/-- How the messages of the client in slot `i` are treated. -/
def treatments (V : VclTestApi) (i : Nat) (s : Server) (inputs : List Input) :
    List (Bool × List Bytes) :=
  (clientHandled V false i s inputs).map fun handled => handled.reaction.observed

/-- Whatever else the worker does from two states, the same messages of the
clients in slots `i` and `j` are treated the same, for as long as they are
there and send at least the length of a magic word. -/
def SameTreatment (V : VclTestApi) (i j : Nat) (s s' : Server) : Prop :=
  ∀ inputs inputs', (server V false).Admits s inputs → (server V false).Admits s' inputs' →
    (server V false).Meets (Server.Serves i) s inputs →
    (server V false).Meets (Server.Serves j) s' inputs' →
    (clientReads V false i s inputs).map Rx.given =
      (clientReads V false j s' inputs').map Rx.given →
    (∀ rx ∈ clientReads V false i s inputs, 4 ≤ rx.msg.length) →
    treatments V i s inputs = treatments V j s' inputs'

/-- A new client is accepted and watched, and given slot `i`, which held the
free record `conn`. -/
structure Server.Accepts (V : VclTestApi) (s : Server) (nc : NewClient) (i : Nat)
    (conn : Conn) : Prop where
  waiting : s.worker.pc = .epollWait
  newFd : nc.clientFd ∉ s.vcl.sessions
  accepted : ¬ nc.clientFd < 0
  watched : ¬ nc.epollCtl < 0
  free : conn.isAlloc = false
  index : (connPoolAlloc V s.worker.connPool nc.reallocOk).2 = some i
  slot : (connPoolAlloc V s.worker.connPool nc.reallocOk).1[i]? = some { conn with isAlloc := true }

/-- The worker after the event of a new client. -/
def Server.accept (V : VclTestApi) (s : Server) (nc : NewClient) : Server :=
  (server V false).next s (.event ⟨.listener, false, false, true⟩ nc)

section Treatment

variable {V : VclTestApi} {i j : Nat} {s s' : Server} {conn conn' : Conn}

/-- What is observed when the library writes at most so much. -/
def answer (given : Bytes × Option Nat) (observed : Bool × List Bytes) : Bool × List Bytes :=
  (observed.1, observed.2.map (Env.written { txLimit := given.2 }))

/-- The treatment is a function of the messages and of what the protocol does
with them. -/
theorem treatments_eq {inputs : List Input} (hSlot : s.worker.connPool[i]? = some conn)
    (hAdmits : (server V false).Admits s inputs)
    (hServes : (server V false).Meets (Server.Serves i) s inputs)
    (hLong : ∀ rx ∈ clientReads V false i s inputs, 4 ≤ rx.msg.length) :
    let given := (clientReads V false i s inputs).map Rx.given
    (protocol V).Admits conn.view (given.map Prod.fst) ∧
      treatments V i s inputs =
        List.zipWith answer given
          (((protocol V).trace conn.view (given.map Prod.fst)).map Reaction.observed) := by
  obtain ⟨hProtocol, hReactions⟩ := clientHandled_reaction hSlot hAdmits hServes hLong
  intro given
  have hMsgs : given.map Prod.fst = (clientReads V false i s inputs).map Rx.msg := List.map_map
  rw [hMsgs]
  refine ⟨hProtocol, ?_⟩
  have hObserved : treatments V i s inputs =
      ((clientHandled V false i s inputs).map Handled.reaction).map Reaction.observed := by
    rw [List.map_map]
    rfl
  rw [hObserved, hReactions, List.map_zipWith, List.zipWith_map_right, List.zipWith_map_left]
  rfl

/-- Connections that the protocol treats alike are treated the same in the
worker. -/
theorem sameTreatment_of_alike (hSlot : s.worker.connPool[i]? = some conn)
    (hSlot' : s'.worker.connPool[j]? = some conn')
    (hAlike : (protocol V).Alike (protocol V) Reaction.observed conn.view conn'.view) :
    SameTreatment V i j s s' := by
  intro inputs inputs' hAdmits hAdmits' hServes hServes' hGiven hLong
  have hMsgs := congrArg (List.map Prod.fst) hGiven
  have hLong' : ∀ rx ∈ clientReads V false j s' inputs', 4 ≤ rx.msg.length := by
    rw [List.map_map, List.map_map] at hMsgs
    intro rx hRx
    have hMem : rx.msg ∈ (clientReads V false i s inputs).map Rx.msg := by
      change rx.msg ∈ List.map (Prod.fst ∘ Rx.given) _
      rw [hMsgs]
      exact List.mem_map_of_mem hRx
    obtain ⟨rx₁, hRx₁, hSame⟩ := List.mem_map.mp hMem
    rw [← hSame]
    exact hLong rx₁ hRx₁
  obtain ⟨hProtocol, hEq⟩ := treatments_eq hSlot hAdmits hServes hLong
  obtain ⟨hProtocol', hEq'⟩ := treatments_eq hSlot' hAdmits' hServes' hLong'
  rw [hEq, hEq', ← hGiven]
  rw [← hGiven] at hProtocol'
  rw [hAlike _ hProtocol hProtocol']

/-- A message in one piece, all of whose replies get out. -/
def plainRx (msg : Bytes) : Rx where
  ds := ⟨msg, []⟩

theorem plainRx_msg (msg : Bytes) : (plainRx msg).msg = msg := List.append_nil msg

/-- With whole writes the answers are those of the protocol. -/
theorem zipWith_answer_plainRx (v : View) (msgs : List Bytes) :
    List.zipWith answer ((msgs.map plainRx).map Rx.given)
        (((protocol V).trace v msgs).map Reaction.observed) =
      ((protocol V).trace v msgs).map Reaction.observed := by
  induction msgs generalizing v with
  | nil => rfl
  | cons msg rest ih =>
      have hAll (o : Bool × List Bytes) : answer (plainRx msg).given o = o := by
        have hWritten : Env.written { txLimit := (plainRx msg).given.2 } = id := rfl
        rw [answer, hWritten, List.map_id]
      rw [List.map_cons, List.map_cons, Machine.trace_cons, List.map_cons, List.zipWith_cons_cons,
        ih, hAll]

/-- A connection of which the worker is running reads any messages that the
protocol receives. -/
theorem exists_reads {fd : Int32} (hSlot : s.worker.connPool[i]? = some conn)
    (hRunning : 0 < s.worker.nfds ∧ s.worker.pc = .epollWait) (hWatched : (fd, i) ∈ s.vcl.watched)
    {msgs : List Bytes} (hMsgs : (protocol V).Admits conn.view msgs) :
    ∃ inputs, (server V false).Admits s inputs ∧
      (server V false).Meets (Server.Serves i) s inputs ∧
      clientReads V false i s inputs = msgs.map plainRx ∧
      (∀ rx ∈ clientReads V false i s inputs, 4 ≤ rx.msg.length) ∧
      treatments V i s inputs = ((protocol V).trace conn.view msgs).map Reaction.observed := by
  have hShows : Shows i s.worker conn.view :=
    ⟨⟨conn, hSlot, rfl⟩, fun _ => ⟨hRunning.1, Or.inl hRunning.2⟩⟩
  have hSame : (msgs.map plainRx).map Rx.msg = msgs := by
    rw [List.map_map]
    exact List.map_id'' plainRx_msg msgs
  obtain ⟨hConnection, hLong⟩ := hShows.admits_iff.mpr (by rwa [hSame])
  obtain ⟨inputs, hAdmits, -, -, hServes, hReads⟩ := connection_run_server hConnection ⟨fd, hWatched⟩
  rw [← hReads] at hLong
  obtain ⟨-, hEq⟩ := treatments_eq hSlot hAdmits hServes hLong
  have hFst : ((msgs.map plainRx).map Rx.given).map Prod.fst = msgs := by
    rw [List.map_map]
    exact hSame
  refine ⟨inputs, hAdmits, hServes, hReads, hLong, ?_⟩
  rw [hEq, hReads, hFst]
  exact zipWith_answer_plainRx conn.view msgs

end Treatment

section Accept

variable {V : VclTestApi} {useDs : Bool} {i j : Nat} {s s' : Server} {conn conn' : Conn}
  {nc nc' : NewClient}

/-- The record of a new client: of what was in the slot only the descriptor
and the address are replaced. -/
def Conn.takenBy (conn : Conn) (nc : NewClient) : Conn :=
  { conn with isAlloc := true, fd := nc.clientFd, endpt := nc.endpt, ip := nc.ip }

/-- The client is in its slot, counted and watched. -/
theorem Server.Accepts.next (h : s.Accepts V nc i conn) :
    (s.accept V nc).worker.connPool[i]? = some (conn.takenBy nc) ∧
      (s.accept V nc).worker.nfds = s.worker.nfds + 1 ∧
      (s.accept V nc).worker.pc = .epollWait ∧
      (nc.clientFd, i) ∈ (s.accept V nc).vcl.watched := by
  have hStep : vtsNewClient V s.worker nc =
      ({ s.worker with
          connPool := (connPoolAlloc V s.worker.connPool nc.reallocOk).1.set i (conn.takenBy nc)
          nfds := s.worker.nfds + 1 },
        [.accept nc.clientFd, .epollAdd nc.clientFd i]) := by
    have hIndex := h.index
    have hSlot := h.slot
    unfold vtsNewClient
    generalize connPoolAlloc V s.worker.connPool nc.reallocOk = result at hIndex hSlot
    obtain ⟨pool, index⟩ := result
    obtain rfl := hIndex
    dsimp only
    rw [if_neg h.accepted, if_neg h.watched, modify_of_getElem? _ hSlot]
    rfl
  have hAccept : s.accept V nc =
      ⟨(vtsNewClient V s.worker nc).1, (vtsNewClient V s.worker nc).2.foldl Vcl.call s.vcl⟩ := rfl
  rw [hAccept, hStep]
  exact ⟨List.getElem?_set_self (List.getElem?_eq_some_iff.mp h.slot).1, rfl, h.waiting,
    List.mem_cons_self⟩

/-- A new client is given the first slot that is free. -/
theorem accepts_of_free (hWaiting : s.worker.pc = .epollWait)
    (hNewFd : nc.clientFd ∉ s.vcl.sessions) (hAccepted : ¬ nc.clientFd < 0)
    (hWatched : ¬ nc.epollCtl < 0) (hSlot : s.worker.connPool[i]? = some conn)
    (hFirst : s.worker.connPool.findIdx? (fun conn => !conn.isAlloc) = some i) :
    s.Accepts V nc i conn := by
  obtain ⟨hLt, hFree, -⟩ := List.findIdx?_eq_some_iff_getElem.mp hFirst
  have hConn : s.worker.connPool[i] = conn :=
    Option.some.inj ((List.getElem?_eq_getElem hLt).symm.trans hSlot)
  have hAlloc : connPoolAlloc V s.worker.connPool nc.reallocOk =
      (s.worker.connPool.set i { conn with isAlloc := true }, some i) := by
    unfold connPoolAlloc connPoolScan
    rw [hFirst]
    dsimp only
    rw [modify_of_getElem? _ hSlot]
  refine ⟨hWaiting, hNewFd, hAccepted, hWatched, ?_, ?_, ?_⟩
  · rw [hConn] at hFree
    simpa using hFree
  · rw [hAlloc]
  · rw [hAlloc]
    exact List.getElem?_set_self hLt

/-- A hang-up of the listener ends the worker, as long as no slot has the
listener's tag. -/
theorem clientHangUp_of_waiting {inputs : List Input} (hAdmits : (server V useDs).Admits s inputs)
    (hWaiting : ((server V useDs).run s inputs).worker.pc = .epollWait)
    (hPool : ((server V useDs).run s inputs).worker.connPool.length < 2 ^ 32) :
    ∀ input ∈ inputs, input.ClientHangUp := by
  induction inputs generalizing s with
  | nil => exact fun _ h => absurd h List.not_mem_nil
  | cons input rest ih =>
      have hGrows : s.worker.connPool.length ≤
          ((server V useDs).run s (input :: rest)).worker.connPool.length :=
        hAdmits.invariant_run (I := fun t => s.worker.connPool.length ≤ t.worker.connPool.length)
          (fun t i _ h => h.trans (length_connPool_le t i)) le_rfl
      rw [Machine.admits_cons] at hAdmits
      refine List.forall_mem_cons.mpr ⟨?_, ih hAdmits.2 hWaiting hPool⟩
      cases input with
      | read env result => exact trivial
      | event ev nc =>
          intro hTag
          by_contra hNot
          have hHangUp : (ev.hup || ev.rdhup) = true := by
            cases hHup : ev.hup <;> cases hRdhup : ev.rdhup <;> simp_all
          have hFault : ((server V useDs).next s (.event ev nc)).worker.pc = .fault := by
            have hNone : s.worker.connPool[ev.tag.index]? = none := by
              rw [hTag, List.getElem?_eq_none_iff]
              change s.worker.connPool.length ≤ 2 ^ 32 - 1
              omega
            change (vtsWorkerEvent V s.worker ev nc).1.pc = .fault
            unfold vtsWorkerEvent
            rw [if_pos hHangUp, hNone]
          cases rest with
          | nil =>
              rw [Machine.run_cons, Machine.run_nil, hFault] at hWaiting
              cases hWaiting
          | cons next more =>
              have hNext := ((Machine.admits_cons ..).mp hAdmits.2).1
              cases next with
              | event ev' nc' =>
                  have hPc := hNext.1
                  rw [hFault] at hPc
                  cases hPc
              | read env result =>
                  obtain ⟨k, hPc, -⟩ := hNext
                  rw [hFault] at hPc
                  cases hPc

end Accept

section Runs

variable {V : VclTestApi}

/-- A new client in a slot that no one has used before, and the same client
in a slot that was used: all its messages are treated the same exactly if it
gets the same descriptor, and what the clients before it have left there is
the default config, but for two words of it, and no received bytes. -/
theorem sameTreatment_iff {poolSize poolSize' : Nat} {history history' : List Input}
    {nc nc' : NewClient} {i j : Nat} {conn : Conn}
    (hCfg : V.cfgSize < 128) (hBuffer : 128 ≤ (freshConn V).bufSize.toNat)
    (hHistory : (server V false).Admits (.initial V poolSize) history)
    (hHistory' : (server V false).Admits (.initial V poolSize') history')
    (hPool : ((server V false).run (.initial V poolSize) history).worker.connPool.length < 2 ^ 32)
    (hPool' :
      ((server V false).run (.initial V poolSize') history').worker.connPool.length < 2 ^ 32)
    (hFresh : ((server V false).run (.initial V poolSize) history).Accepts V nc i (freshConn V))
    (hUsed : ((server V false).run (.initial V poolSize') history').Accepts V nc' j conn)
    (hSize : conn.bufSize = (freshConn V).bufSize) :
    SameTreatment V i j (((server V false).run (.initial V poolSize) history).accept V nc)
        (((server V false).run (.initial V poolSize') history').accept V nc') ↔
      nc.clientFd = nc'.clientFd ∧ conn.cfg.shown = (freshConn V).cfg.shown ∧
        conn.stats.rxBytes = 0 := by
  have hRunning := (tracked_run hHistory
    (clientHangUp_of_waiting hHistory hFresh.waiting hPool)).registered.count
  have hRunning' := (tracked_run hHistory'
    (clientHangUp_of_waiting hHistory' hUsed.waiting hPool')).registered.count
  obtain ⟨hSlot, hNfds, hPc, hWatched⟩ := hFresh.next
  obtain ⟨hSlot', hNfds', hPc', hWatched'⟩ := hUsed.next
  have hUntouched : ((freshConn V).takenBy nc).view.Untouched :=
    ⟨rfl, V.cfgInit_test, rfl, hBuffer⟩
  have hTaken : (conn.takenBy nc').view.isAlloc = true := rfl
  have hExact := alike_iff_shown hCfg hUntouched hTaken hSize
  have hShown : ((freshConn V).takenBy nc).view.cfg.shown = (conn.takenBy nc').view.cfg.shown ↔
      conn.cfg.shown = (freshConn V).cfg.shown := eq_comm
  have hBytes : ((freshConn V).takenBy nc).view.rxBytes = (conn.takenBy nc').view.rxBytes ↔
      conn.stats.rxBytes = 0 := eq_comm
  rw [hShown, hBytes] at hExact
  refine Iff.trans ⟨fun hSame => ?_, fun hAlike => sameTreatment_of_alike hSlot hSlot' hAlike⟩ hExact
  intro msgs hMsgs hMsgs'
  obtain ⟨inputs, hAdmits, hServes, hReads, hLong, hEq⟩ :=
    exists_reads hSlot ⟨by omega, hPc⟩ hWatched hMsgs
  obtain ⟨inputs', hAdmits', hServes', hReads', -, hEq'⟩ :=
    exists_reads hSlot' ⟨by omega, hPc'⟩ hWatched' hMsgs'
  rw [← hEq, ← hEq']
  exact hSame inputs inputs' hAdmits hAdmits' hServes hServes' (by rw [hReads, hReads']) hLong

/-- The step by which an earlier client of the slot has left it, which only an
EXIT does. -/
def Server.LeavesSlot (V : VclTestApi) (j : Nat) (s : Server) (input : Input) : Prop :=
  s.worker.connPool[j]?.map Conn.isAlloc = some true ∧
    ((server V false).next s input).worker.connPool[j]?.map Conn.isAlloc = some false

instance (j : Nat) (s : Server) (input : Input) : Decidable (s.LeavesSlot V j input) :=
  inferInstanceAs (Decidable (_ ∧ _))

/-- A client is treated the same in the first slot and in the second, which no
one has used either. One that connects and only sends an EXIT leaves its bytes
counted. -/
theorem sameTreatment_iff_exit :
    let exit : VclTestCfg := { defaultCfg with test := .exit }
    let history : List Input := [.event ⟨.listener, false, false, true⟩ ⟨true, 3, 0, {}, []⟩]
    let history' : List Input := history ++
      [.event ⟨.listener, false, false, true⟩ ⟨true, 5, 0, {}, []⟩,
        .event ⟨.client 1, false, false, true⟩ ⟨true, 7, 0, {}, []⟩,
        .read {} (.message ⟨packedApi.encode exit, []⟩)]
    let s₀ := (server packedApi false).run (.initial packedApi 2) []
    let s := (server packedApi false).run (.initial packedApi 2) history
    let s' := (server packedApi false).run (.initial packedApi 2) history'
    SameTreatment packedApi 0 1 (s₀.accept packedApi ⟨true, 5, 0, {}, []⟩)
        (s.accept packedApi ⟨true, 5, 0, {}, []⟩) ∧
      ¬ SameTreatment packedApi 1 1 (s.accept packedApi ⟨true, 5, 0, {}, []⟩)
        (s'.accept packedApi ⟨true, 5, 0, {}, []⟩) := by
  intro exit history history' s₀ s s'
  have hFirstSlot : s₀.Accepts packedApi ⟨true, 5, 0, {}, []⟩ 0 (freshConn packedApi) :=
    accepts_of_free rfl (by decide +kernel) (by decide) (by decide) rfl (by decide +kernel)
  have hFresh : s.Accepts packedApi ⟨true, 5, 0, {}, []⟩ 1 (freshConn packedApi) :=
    accepts_of_free rfl (by decide +kernel) (by decide) (by decide) rfl (by decide +kernel)
  have hRun : (server packedApi false).Admits (.initial packedApi 2) history' ∧
      s'.worker.pc = .epollWait ∧ (5 : Int32) ∉ s'.vcl.sessions ∧ s'.worker.connPool.length < 2 ^ 32 ∧
      s'.worker.connPool.findIdx? (fun conn => !conn.isAlloc) = some 1 ∧
      s'.worker.connPool[1]?.map (fun conn => (conn.bufSize, conn.stats.rxBytes)) =
        some ((freshConn packedApi).bufSize, 56) := by
    decide +kernel
  obtain ⟨hHistory', hWaiting, hNewFd, hPool', hFirst, hLeft⟩ := hRun
  obtain ⟨conn, hSlot, hConn⟩ := Option.map_eq_some_iff.mp hLeft
  obtain ⟨hSize, hCounted⟩ := Prod.mk.inj hConn
  have hUsed : s'.Accepts packedApi ⟨true, 5, 0, {}, []⟩ 1 conn :=
    accepts_of_free hWaiting hNewFd (by decide) (by decide) hSlot hFirst
  refine ⟨(sameTreatment_iff (by decide +kernel) (by decide +kernel) (Machine.admits_nil _)
    (by decide +kernel) (by decide +kernel) (by decide +kernel) hFirstSlot hFresh rfl).mpr
      ⟨rfl, rfl, rfl⟩, fun hSame => ?_⟩
  obtain ⟨-, -, hNone⟩ := (sameTreatment_iff (by decide +kernel) (by decide +kernel)
    (by decide +kernel) hHistory' (by decide +kernel) hPool' hFresh hUsed hSize).mp hSame
  rw [hCounted] at hNone
  exact absurd hNone (by decide)

/-- A client that breaks off a test after 20 bytes. The next client in its
slot sends a config, which is taken for data of that test. -/
theorem not_sameTreatment :
    ¬ ∀ (poolSize poolSize' : Nat) (history history' : List Input) (nc nc' : NewClient)
        (i j : Nat) (conn : Conn),
      (server packedApi false).Admits (.initial packedApi poolSize) history →
      (server packedApi false).Admits (.initial packedApi poolSize') history' →
      ((server packedApi false).run (.initial packedApi poolSize) history).Accepts packedApi nc i
        (freshConn packedApi) →
      ((server packedApi false).run (.initial packedApi poolSize') history').Accepts packedApi nc' j
        conn →
      (∃ visit ∈ (server packedApi false).visits (.initial packedApi poolSize') history',
        visit.1.LeavesSlot packedApi j visit.2) →
      conn.bufSize = (freshConn packedApi).bufSize →
      nc.clientFd = nc'.clientFd →
      SameTreatment packedApi i j
        (((server packedApi false).run (.initial packedApi poolSize) history).accept packedApi nc)
        (((server packedApi false).run (.initial packedApi poolSize') history').accept packedApi
          nc') := by
  intro h
  let uni := packedApi.encode { defaultCfg with test := .uni }
  let exit := packedApi.encode { defaultCfg with test := .exit }
  let nc : NewClient := ⟨true, 5, 0, {}, []⟩
  let message (msg : Bytes) : List Input :=
    [.event ⟨.client 1, false, false, true⟩ ⟨true, 7, 0, {}, []⟩, .read {} (.message ⟨msg, []⟩)]
  let history : List Input := [.event ⟨.listener, false, false, true⟩ ⟨true, 3, 0, {}, []⟩]
  let history' : List Input := history ++ [.event ⟨.listener, false, false, true⟩ nc] ++
    message uni ++ message (List.replicate 20 1) ++ message exit
  let s := (server packedApi false).run (.initial packedApi 2) history
  let s' := (server packedApi false).run (.initial packedApi 2) history'
  have hFresh : s.Accepts packedApi nc 1 (freshConn packedApi) :=
    accepts_of_free rfl (by decide +kernel) (by decide) (by decide) rfl (by decide +kernel)
  have hRun : (server packedApi false).Admits (.initial packedApi 2) history' ∧
      (∃ visit ∈ (server packedApi false).visits (.initial packedApi 2) history',
        visit.1.LeavesSlot packedApi 1 visit.2) ∧
      s'.worker.pc = .epollWait ∧ nc.clientFd ∉ s'.vcl.sessions ∧
      s'.worker.connPool.findIdx? (fun conn => !conn.isAlloc) = some 1 ∧
      s'.worker.connPool[1]?.map Conn.bufSize = some (freshConn packedApi).bufSize := by
    decide +kernel
  obtain ⟨hHistory', hLeaves, hWaiting, hNewFd, hFirst, hBuffer⟩ := hRun
  obtain ⟨conn, hSlot, hSize⟩ := Option.map_eq_some_iff.mp hBuffer
  have hUsed : s'.Accepts packedApi nc 1 conn :=
    accepts_of_free hWaiting hNewFd (by decide) (by decide) hSlot hFirst
  have hSame := h 2 2 history history' nc nc 1 1 conn (by decide +kernel) hHistory' hFresh hUsed
    hLeaves hSize rfl
  -- The config is handled and answered in the fresh slot, and swallowed in the other.
  have hConfig : (server packedApi false).Admits (s.accept packedApi nc) (message uni) ∧
      (server packedApi false).Meets (Server.Serves 1) (s.accept packedApi nc) (message uni) ∧
      (∀ rx ∈ clientReads packedApi false 1 (s.accept packedApi nc) (message uni),
        4 ≤ rx.msg.length) ∧
      (treatments packedApi 1 (s.accept packedApi nc) (message uni)).map Prod.fst = [true] := by
    decide +kernel
  have hData : (server packedApi false).Admits (s'.accept packedApi nc) (message uni) ∧
      (server packedApi false).Meets (Server.Serves 1) (s'.accept packedApi nc) (message uni) ∧
      (clientReads packedApi false 1 (s.accept packedApi nc) (message uni)).map Rx.given =
        (clientReads packedApi false 1 (s'.accept packedApi nc) (message uni)).map Rx.given ∧
      treatments packedApi 1 (s'.accept packedApi nc) (message uni) = [(false, [])] := by
    decide +kernel
  obtain ⟨hAdmits, hServes, hLong, hTrue⟩ := hConfig
  obtain ⟨hAdmits', hServes', hGiven, hFalse⟩ := hData
  rw [hSame (message uni) (message uni) hAdmits hAdmits' hServes hServes' hGiven hLong,
    hFalse] at hTrue
  exact absurd hTrue (by decide)

end Runs

end DpdkPerf.VclTestServer
