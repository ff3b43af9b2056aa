import DpdkPerf.VclTestServer.Accounting
import DpdkPerf.VclTestServer.Interleaving

/-! The batches of events that `vppcom_epoll_wait` delivers, for either
protocol. The events of a batch were collected together, so one of them may
come after its client has left its slot. -/
namespace DpdkPerf.VclTestServer

/-- The worker and the events of `wait_events` not yet looked at. What `givenUp`
says is in no variable of the source, and no step reads it. -/
structure Loop where
  server : Server
  batch : List EpollEvent
  /-- The slots that an EXIT has given up since the batch was collected and
  that no new client has been given since. -/
  givenUp : List Nat
  deriving DecidableEq

inductive LoopInput where
  /-- The result of `vppcom_epoll_wait`, `none` if it failed. -/
  | wait (events : Option (List EpollEvent))
  /-- The next event is looked at. `rxBytes` is what is read from the listener
  if it is a datagram. -/
  | event (nc : NewClient) (rxBytes : Nat)
  | read (env : Env) (result : ReadResult)
  deriving DecidableEq

/-- The slot an event stands for, where the loop gets to use it: with UDP a
readable descriptor means a datagram, which has no slot, and the hang-up bits
are tested before the tag. -/
def EpollEvent.slot (udp : Bool) (ev : EpollEvent) : Option Nat :=
  if udp && ev.epollin then none
  else if ev.hup || ev.rdhup then some ev.tag.index
  else
    match ev.tag with
    | .listener => none
    | .client index => if ev.epollin then some index else none

variable (V : VclTestApi) (useDs udp : Bool) (listenFd : Int32)

/-- The body of the loop for one event. With UDP an event that is not readable
goes on as one of a stream does. -/
def vtsWorkerLoopEvent (w : Worker) (ev : EpollEvent) (nc : NewClient) (rxBytes : Nat) :
    Worker × List Call :=
  if udp && ev.epollin then (w, [.readSegments listenFd rxBytes, .freeSegments listenFd])
  else vtsWorkerEvent V w ev nc

def Loop.step (l : Loop) : LoopInput → Worker × List Call
  | .wait none => ({ l.server.worker with pc := .fail }, [])
  | .wait (some _) => (l.server.worker, [])
  | .event nc rxBytes =>
      match l.batch with
      | [] => (l.server.worker, [])
      | ev :: _ => vtsWorkerLoopEvent V udp listenFd l.server.worker ev nc rxBytes
  | .read env result => l.server.step V useDs (.read env result)

def Loop.nextBatch (l : Loop) : LoopInput → List EpollEvent
  | .wait events => events.getD []
  | .event _ _ => l.batch.tail
  | .read _ _ => l.batch

/-- The slot is one of the pool, and it is allocated. -/
def InUse (pool : List Conn) (i : Nat) : Prop :=
  ∃ conn ∈ pool[i]?, conn.isAlloc = true

instance (pool : List Conn) (i : Nat) : Decidable (InUse pool i) :=
  inferInstanceAs (Decidable (∃ conn ∈ pool[i]?, conn.isAlloc = true))

/-- The message is an EXIT that is taken for a config. -/
def Conn.Exits (conn : Conn) (env : Env) (ds : Segments) : Prop :=
  let config := vtsConnReadConfig V useDs (vtsConnRead useDs env conn ds)
  route V useDs (vtsConnRead useDs env conn ds) = .handleCfg ∧ ds.data.length = V.cfgSize ∧
    (V.decode (config.buf.bytes.take V.cfgSize)).test = .exit

instance (conn : Conn) (env : Env) (ds : Segments) : Decidable (conn.Exits V useDs env ds) :=
  inferInstanceAs (Decidable (_ ∧ _ ∧ _))

def Loop.nextGivenUp (l : Loop) (input : LoopInput) : List Nat :=
  match input with
  | .wait _ => []
  | .event _ _ =>
      l.givenUp.filter fun i => ¬ InUse (l.step V useDs udp listenFd input).1.connPool i
  | .read _ (.error _) => l.givenUp
  | .read env (.message ds) =>
      match l.server.worker.pc with
      | .readAgain i =>
          if ∃ conn ∈ l.server.worker.connPool[i]?, conn.Exits V useDs env ds then i :: l.givenUp
          else l.givenUp
      | _ => l.givenUp

/-- Events are collected for descriptors that are registered at that time. -/
def Loop.Enabled (l : Loop) : LoopInput → Prop
  | .wait events =>
      l.server.worker.pc = .epollWait ∧ l.batch = [] ∧
        ∀ ev ∈ events.getD [], ∀ i, ev.tag = .client i → ∃ fd, (fd, i) ∈ l.server.vcl.watched
  | .event nc _ =>
      l.server.worker.pc = .epollWait ∧ l.batch ≠ [] ∧
        (¬ nc.clientFd < 0 → nc.clientFd ∉ l.server.vcl.sessions)
  | .read env result => l.server.Enabled useDs (.read env result)

instance (l : Loop) (input : LoopInput) : Decidable (l.Enabled useDs input) :=
  match input with
  | .wait events =>
      have (ev : EpollEvent) :
          Decidable (∀ i, ev.tag = .client i → ∃ fd, (fd, i) ∈ l.server.vcl.watched) :=
        inferInstance
      inferInstanceAs (Decidable (_ ∧ _ ∧ ∀ ev ∈ events.getD [], ∀ i, ev.tag = .client i → _))
  | .event _ _ => inferInstanceAs (Decidable (_ ∧ _ ∧ _))
  | .read env result => inferInstanceAs (Decidable (l.server.Enabled useDs (.read env result)))

/-- Runs of `vts_worker_loop` for either protocol, batch after batch. -/
def eventLoop : Machine Loop LoopInput (List Call) where
  enabled := Loop.Enabled useDs
  next l input :=
    { server := ⟨(l.step V useDs udp listenFd input).1,
        (l.step V useDs udp listenFd input).2.foldl Vcl.call l.server.vcl⟩
      batch := l.nextBatch input
      givenUp := l.nextGivenUp V useDs udp listenFd input }
  output l input := (l.step V useDs udp listenFd input).2

instance (l : Loop) (input : LoopInput) :
    Decidable ((eventLoop V useDs udp listenFd).enabled l input) :=
  inferInstanceAs (Decidable (l.Enabled useDs input))

def Loop.initial (poolSize : Nat) : Loop :=
  ⟨.initial V poolSize, [], []⟩

section Safety

/-- The event a step takes from the batch. -/
def Loop.takes (l : Loop) : LoopInput → Option EpollEvent
  | .event _ _ => l.batch.head?
  | _ => none

/-- The slot whose fields a step reads or acts on. -/
def Loop.slot (l : Loop) (input : LoopInput) : Option Nat :=
  match input with
  | .wait _ => none
  | .event _ _ => (l.takes input).bind (EpollEvent.slot udp)
  | .read _ _ =>
      match l.server.worker.pc with
      | .readAgain i => some i
      | _ => none

/-- The slot a step uses is in use, and at an event of the listener no session
is closed and none is counted off. -/
def Loop.IndexSafe (l : Loop) (input : LoopInput) : Prop :=
  (∀ i ∈ l.slot udp input, InUse l.server.worker.connPool i) ∧
    ∀ ev ∈ l.takes input, ev.tag = .listener →
      (∀ fd, .close fd ∉ (l.step V useDs udp listenFd input).2) ∧
        l.server.worker.nfds ≤ (l.step V useDs udp listenFd input).1.nfds

/-- The event about to be looked at is no hang-up of the listener that gets to
use a slot, and no event for a slot given up earlier in the batch. -/
def Loop.Orderly (l : Loop) (input : LoopInput) : Prop :=
  ∀ ev ∈ l.takes input, (ev.tag = .listener → ev.slot udp = none) ∧
    ∀ i ∈ l.givenUp, ev.slot udp ≠ some i

instance (l : Loop) (input : LoopInput) : Decidable (l.Orderly udp input) :=
  inferInstanceAs (Decidable (∀ ev ∈ l.takes input, (_ → _) ∧ ∀ i ∈ l.givenUp, _))

end Safety

section Slots

variable {V useDs} {pool : List Conn} {vcl : Vcl} {w : Worker} {i k : Nat} {conn conn' : Conn}

/-- A slot that is written to is in use if the new record is. -/
theorem inUse_set_self (hSlot : pool[k]? = some conn) :
    InUse (pool.set k conn') k ↔ conn'.isAlloc = true := by
  unfold InUse
  rw [List.getElem?_set_self (List.getElem?_eq_some_iff.mp hSlot).1]
  simp

theorem inUse_set_of_ne (hNe : k ≠ i) : InUse (pool.set k conn') i ↔ InUse pool i := by
  unfold InUse
  rw [List.getElem?_set_ne hNe]

/-- A record that stays allocated, or free, leaves every slot as it was. -/
theorem inUse_set_same (hSlot : pool[k]? = some conn) (hSame : conn'.isAlloc = conn.isAlloc) :
    InUse (pool.set k conn') i ↔ InUse pool i := by
  by_cases hEq : k = i
  · subst hEq
    rw [inUse_set_self hSlot, hSame]
    unfold InUse
    rw [hSlot]
    simp
  · exact inUse_set_of_ne hEq

theorem InUse.vtsNewClient (h : InUse w.connPool i) (nc : NewClient) :
    InUse (vtsNewClient V w nc).1.connPool i := by
  obtain ⟨conn, hSlot, hAlloc⟩ := h
  exact ⟨conn, slot_vtsNewClient hSlot hAlloc nc, hAlloc⟩

/-- Each watched session is the client of the slot it is watched with. -/
def Served (pool : List Conn) (vcl : Vcl) : Prop :=
  ∀ fd i, (fd, i) ∈ vcl.watched → ∃ conn ∈ pool[i]?, conn.isAlloc = true ∧ conn.fd = fd

theorem Served.inUse (h : Served pool vcl) {fd : Int32} (hWatched : (fd, i) ∈ vcl.watched) :
    InUse pool i := by
  obtain ⟨conn, hSlot, hAlloc, -⟩ := h fd i hWatched
  exact ⟨conn, hSlot, hAlloc⟩

theorem Served.close (h : Served pool vcl) (fd : Int32) : Served pool (vcl.call (.close fd)) :=
  fun fd' i hWatched => h fd' i (List.mem_filter.mp hWatched).1

/-- A record that keeps its session serves it still. -/
theorem Served.set (h : Served pool vcl) (hSlot : pool[k]? = some conn)
    (hAlloc : conn'.isAlloc = conn.isAlloc) (hFd : conn'.fd = conn.fd) :
    Served (pool.set k conn') vcl := by
  intro fd i hWatched
  obtain ⟨old, hOld, hOldAlloc, hOldFd⟩ := h fd i hWatched
  by_cases hEq : k = i
  · subst hEq
    obtain rfl : conn = old := Option.some.inj (hSlot.symm.trans hOld)
    exact ⟨conn', List.getElem?_set_self (List.getElem?_eq_some_iff.mp hSlot).1,
      hAlloc.trans hOldAlloc, hFd.trans hOldFd⟩
  · exact ⟨old, (List.getElem?_set_ne hEq).trans hOld, hOldAlloc, hOldFd⟩

/-- The slot that an EXIT gives up is watched by no session any more. -/
theorem Served.release (h : Served pool vcl) (hSlot : pool[k]? = some conn) :
    Served (pool.set k conn') (vcl.call (.close conn.fd)) := by
  intro fd i hWatched
  obtain ⟨hOld, hNe⟩ := List.mem_filter.mp hWatched
  obtain ⟨old, hOldSlot, hOldAlloc, rfl⟩ := h fd i hOld
  have hOther : k ≠ i := by
    rintro rfl
    obtain rfl : conn = old := Option.some.inj (hSlot.symm.trans hOldSlot)
    simp at hNe
  exact ⟨old, (List.getElem?_set_ne hOther).trans hOldSlot, hOldAlloc, rfl⟩

/-- A new client is watched with the slot it was given. -/
theorem watched_vtsNewClient (V : VclTestApi) (vcl : Vcl) (w : Worker) (nc : NewClient) :
    let result := vtsNewClient V w nc
    (result.2.foldl Vcl.call vcl).watched = vcl.watched ∨
      ∃ i, (result.2.foldl Vcl.call vcl).watched = (nc.clientFd, i) :: vcl.watched ∧
        ∃ conn ∈ result.1.connPool[i]?, conn.isAlloc = true ∧ conn.fd = nc.clientFd := by
  intro result
  rcases vtsNewClient_cases V w nc with ⟨-, hEq⟩ | ⟨-, n, i, conn, hSlot, hFree, hEq⟩
  · have hResult : result = _ := hEq
    rw [hResult]
    exact Or.inl rfl
  · have hResult : result = _ := hEq
    rw [hResult]
    split_ifs
    · exact Or.inl rfl
    · exact Or.inl rfl
    · exact Or.inr ⟨i, rfl, _, List.getElem?_set_self (List.getElem?_eq_some_iff.mp hSlot).1, rfl, rfl⟩

/-- A new client is watched with a record of its own. -/
theorem Served.vtsNewClient (h : Served w.connPool vcl) (nc : NewClient) :
    Served (vtsNewClient V w nc).1.connPool ((vtsNewClient V w nc).2.foldl Vcl.call vcl) := by
  have hKept : ∀ fd i, (fd, i) ∈ vcl.watched →
      ∃ conn ∈ (VclTestServer.vtsNewClient V w nc).1.connPool[i]?, conn.isAlloc = true ∧ conn.fd = fd := by
    intro fd i hWatched
    obtain ⟨conn, hSlot, hAlloc, hFd⟩ := h fd i hWatched
    exact ⟨conn, slot_vtsNewClient hSlot hAlloc nc, hAlloc, hFd⟩
  intro fd i hWatched
  rcases watched_vtsNewClient V vcl w nc with hSame | ⟨k, hMore, hNew⟩
  · rw [hSame] at hWatched
    exact hKept fd i hWatched
  · rw [hMore] at hWatched
    rcases List.mem_cons.mp hWatched with hEq | hOld
    · obtain ⟨rfl, rfl⟩ := Prod.mk.inj hEq
      exact hNew
    · exact hKept fd i hOld

/-- A slot is given up at an EXIT and at nothing else. -/
theorem released_iff_exits {nfds : Int} {env : Env} {ds : Segments} (hAlloc : conn.isAlloc = true) :
    (vtsHandleMessage V useDs env pool i nfds conn ds).conn.isAlloc = false ↔
      conn.Exits V useDs env ds := by
  by_cases hRoute : route V useDs (vtsConnRead useDs env conn ds) = .handleCfg
  · have hRead : (vtsConnReadConfig V useDs (vtsConnRead useDs env conn ds)).isAlloc =
        conn.isAlloc := by
      cases useDs <;> rfl
    rw [vtsHandleMessage_handleCfg V useDs env pool i conn nfds ds hRoute]
    unfold Conn.Exits
    dsimp only
    generalize vtsConnReadConfig V useDs (vtsConnRead useDs env conn ds) = config at hRead
    rcases vtsHandleCfg_cases V env pool i config nfds
        (V.decode (config.buf.bytes.take V.cfgSize)) ds.data.length with
      ⟨result, hEq, hKeeps⟩ | ⟨hSize, hTest, hEq⟩
    · have hKept : result.1.isAlloc = true := hKeeps.isAlloc.trans (hRead.trans hAlloc)
      rw [hEq]
      refine iff_of_false (fun hFree => ?_) fun hExits => ?_
      · exact absurd (hKept.symm.trans hFree) (by decide)
      · unfold vtsHandleCfg at hEq
        rw [if_neg (not_not.mpr hExits.2.1), hExits.2.2] at hEq
        have hFree : result.1.isAlloc = false := (congrArg (fun r => r.1.isAlloc) hEq).symm
        exact absurd (hKept.symm.trans hFree) (by decide)
    · rw [hEq]
      exact iff_of_true rfl ⟨hRoute, hSize, hTest⟩
  · refine iff_of_false (fun hFree => ?_) fun hExits => hRoute hExits.1
    cases messageCalls V useDs env pool i conn nfds ds with
    | kept before after hKeeps hNfds hCalls =>
        exact absurd (hFree.symm.trans (hKeeps.isAlloc.trans hAlloc)) (by decide)
    | closed hClosed hReleased hNfds hCalls =>
        rw [vtsHandleMessage_route] at hClosed
        exact hRoute hClosed

end Slots

section Steps

variable (V : VclTestApi) (useDs udp : Bool) (listenFd : Int32)

/-- The loop goes on to the next event. -/
def WorkerPc.Running : WorkerPc → Prop
  | .epollWait | .readAgain _ => True
  | .done | .fail | .fault => False

/-- A hang-up comes first, then the listener's tag, then the other events of a
client. -/
theorem vtsWorkerEvent_cases (w : Worker) (ev : EpollEvent) (nc : NewClient) :
    ((ev.hup || ev.rdhup) = true ∧ ∃ nfds pc, ∃ closed : List Int32,
        vtsWorkerEvent V w ev nc = ({ w with nfds := nfds, pc := pc }, closed.map Call.close) ∧
          ∀ i, pc ≠ .readAgain i) ∨
      ((ev.hup || ev.rdhup) = false ∧ ev.tag = .listener ∧
        vtsWorkerEvent V w ev nc = vtsNewClient V w nc) ∨
      ((ev.hup || ev.rdhup) = false ∧ ∃ i, ev.tag = .client i ∧
        vtsWorkerEvent V w ev nc =
          ({ w with pc := if ev.epollin then .readAgain i else .fail }, [])) := by
  unfold vtsWorkerEvent
  cases hHangUp : ev.hup || ev.rdhup with
  | true =>
      refine Or.inl ⟨rfl, ?_⟩
      rw [if_pos rfl]
      cases w.connPool[ev.tag.index]? with
      | none => exact ⟨w.nfds, .fault, [], rfl, fun _ h => by cases h⟩
      | some conn =>
          refine ⟨w.nfds - 1, _, [conn.fd], rfl, fun i h => ?_⟩
          split_ifs at h
  | false =>
      rw [if_neg Bool.false_ne_true]
      cases ev.tag with
      | listener => exact Or.inr (Or.inl ⟨rfl, rfl, rfl⟩)
      | client i =>
          refine Or.inr (Or.inr ⟨rfl, i, rfl, ?_⟩)
          cases ev.epollin <;> rfl

variable {V useDs udp listenFd} {w : Worker} {vcl : Vcl} {ev : EpollEvent} {nc : NewClient} {i : Nat}

/-- An event keeps the watched sessions with their slots. -/
theorem Served.vtsWorkerEvent (h : Served w.connPool vcl) :
    Served (vtsWorkerEvent V w ev nc).1.connPool
      ((vtsWorkerEvent V w ev nc).2.foldl Vcl.call vcl) := by
  rcases vtsWorkerEvent_cases V w ev nc with
    ⟨-, nfds, pc, closed, hEq, -⟩ | ⟨-, -, hEq⟩ | ⟨-, i, -, hEq⟩
  · rw [hEq]
    change Served w.connPool ((closed.map Call.close).foldl Vcl.call vcl)
    clear hEq
    induction closed generalizing vcl with
    | nil => exact h
    | cons fd rest ih => exact ih (h.close fd)
  · rw [hEq]
    exact h.vtsNewClient nc
  · rw [hEq]
    exact h

theorem InUse.vtsWorkerEvent (h : InUse w.connPool i) :
    InUse (vtsWorkerEvent V w ev nc).1.connPool i := by
  rcases vtsWorkerEvent_cases V w ev nc with
    ⟨-, nfds, pc, closed, hEq, -⟩ | ⟨-, -, hEq⟩ | ⟨-, j, -, hEq⟩
  · rw [hEq]
    exact h
  · rw [hEq]
    exact h.vtsNewClient nc
  · rw [hEq]
    exact h

theorem vtsNewClient_pc (w : Worker) (nc : NewClient) : (vtsNewClient V w nc).1.pc = w.pc := by
  rcases vtsNewClient_cases V w nc with ⟨-, hEq⟩ | ⟨-, n, i, conn, -, -, hEq⟩
  · rw [hEq]
  · rw [hEq]
    split_ifs
    all_goals rfl

/-- A slot is read at an event of its client. -/
theorem vtsWorkerEvent_reads (hPc : w.pc = .epollWait)
    (hReads : (vtsWorkerEvent V w ev nc).1.pc = .readAgain i) :
    ev.tag = .client i ∧ (ev.hup || ev.rdhup) = false ∧ ev.epollin = true := by
  rcases vtsWorkerEvent_cases V w ev nc with
    ⟨-, nfds, pc, closed, hEq, hNot⟩ | ⟨-, -, hEq⟩ | ⟨hHangUp, j, hTag, hEq⟩
  · rw [hEq] at hReads
    exact absurd hReads (hNot i)
  · rw [hEq, vtsNewClient_pc, hPc] at hReads
    cases hReads
  · rw [hEq] at hReads
    cases hIn : ev.epollin with
    | true =>
        rw [hIn] at hReads
        obtain rfl : j = i := WorkerPc.readAgain.inj hReads
        exact ⟨hTag, hHangUp, rfl⟩
    | false =>
        rw [hIn] at hReads
        cases hReads

/-- A message is read into its slot, and no other changes. The slot is given
up at an EXIT and only there, which ends the loop if it was the last client's. -/
theorem vtsWorkerRead_cases (V : VclTestApi) (useDs : Bool) {conn : Conn} (hSlot : w.connPool[i]? = some conn)
    (hAlloc : conn.isAlloc = true) (vcl : Vcl) (env : Env) (result : ReadResult) :
    let read := vtsWorkerRead V useDs w i env result
    (∃ conn', conn'.isAlloc = conn.isAlloc ∧ conn'.fd = conn.fd ∧
        read.1.connPool = w.connPool.set i conn' ∧ read.2.foldl Vcl.call vcl = vcl ∧
        (∀ ds, result = .message ds → ¬ conn.Exits V useDs env ds) ∧
        ∀ j, read.1.pc = .readAgain j → i = j) ∨
      ∃ ds conn', result = .message ds ∧ conn.Exits V useDs env ds ∧ conn'.isAlloc = false ∧
        read.1.connPool = w.connPool.set i conn' ∧
        read.2.foldl Vcl.call vcl = vcl.call (.close conn.fd) ∧
        read.1.pc = if w.nfds = 1 then .done else .epollWait := by
  intro read
  cases result with
  | error connReset =>
      unfold read vtsWorkerRead
      rw [hSlot]
      let stats := { conn.stats with rxXacts := conn.stats.rxXacts + env.rxXacts }
      refine Or.inl ⟨{ conn with stats := stats }, rfl, rfl, rfl, rfl, nofun, fun j hReads => ?_⟩
      cases connReset <;> cases hReads
  | message ds =>
      have hRead : read = _ := vtsWorkerRead_message hSlot
      rw [hRead]
      dsimp only
      rcases vcl_message vcl (messageCalls V useDs env w.connPool i conn w.nfds ds) with
        ⟨hKeep, hFd, -, hVcl⟩ | ⟨hRoute, hFree, hNfds, hVcl⟩
      · have hStays : ¬ conn.Exits V useDs env ds := by
          intro hExits
          have hFree : (vtsHandleMessage V useDs env w.connPool i w.nfds conn ds).conn.isAlloc = false :=
            (released_iff_exits hAlloc).mpr hExits
          exact absurd (hFree.symm.trans (hKeep.trans hAlloc)) (by decide)
        refine Or.inl ⟨_, hKeep, hFd, rfl, hVcl, fun ds' hEq => ?_,
          fun j hReads => (pcAfter_readAgain hReads).2⟩
        obtain rfl := ReadResult.message.inj hEq
        exact hStays
      · refine Or.inr ⟨ds, _, rfl, (released_iff_exits hAlloc).mp hFree, hFree, rfl, hVcl, ?_⟩
        have hLast : w.nfds - 1 = 0 ↔ w.nfds = 1 := by omega
        unfold pcAfter
        rw [hRoute, hNfds]
        simp only [hLast]

end Steps

section Runs

variable (udp : Bool)

/-- The accounting of a new client: nothing is closed, and `nfds` does not fall. -/
theorem listener_vtsNewClient {V : VclTestApi} (w : Worker) (nc : NewClient) :
    (∀ fd, .close fd ∉ (vtsNewClient V w nc).2) ∧ w.nfds ≤ (vtsNewClient V w nc).1.nfds := by
  rcases vtsNewClient_cases V w nc with ⟨-, hEq⟩ | ⟨-, n, i, conn, -, -, hEq⟩
  · rw [hEq]
    exact ⟨fun _ => List.not_mem_nil, Int.le_refl _⟩
  · rw [hEq]
    split_ifs
    · exact ⟨fun _ => List.not_mem_nil, Int.le_refl _⟩
    · exact ⟨by simp, Int.le_refl _⟩
    · refine ⟨by simp, ?_⟩
      change w.nfds ≤ w.nfds + 1
      omega

/-- The invariant of every orderly run: the slots of the watched sessions and
of the connection about to be read are in use, and so are those the rest of
the batch is for, but for those given up in it, which are not. -/
structure Loop.Indexed (l : Loop) : Prop where
  served : Served l.server.worker.connPool l.server.vcl
  batch : l.server.worker.pc.Running → ∀ ev ∈ l.batch, ∀ i, ev.tag = .client i →
    ev.slot udp = some i → i ∉ l.givenUp → InUse l.server.worker.connPool i
  reading : ∀ i, l.server.worker.pc = .readAgain i → InUse l.server.worker.connPool i
  givenUp : ∀ i ∈ l.givenUp, ¬ InUse l.server.worker.connPool i

variable {V : VclTestApi} {useDs : Bool} {listenFd : Int32} {udp} {l : Loop}

/-- An event of a client is for the slot in its tag. -/
theorem slot_client {ev : EpollEvent} {i j : Nat} (hTag : ev.tag = .client i)
    (hSlot : ev.slot udp = some j) : j = i := by
  unfold EpollEvent.slot at hSlot
  rw [hTag] at hSlot
  split_ifs at hSlot
  · exact (Option.some.inj hSlot).symm
  · exact (Option.some.inj hSlot).symm

/-- A slot is given up until a new client has it. -/
theorem Loop.nextGivenUp_event (nc : NewClient) (rxBytes : Nat) {i : Nat} :
    i ∈ l.nextGivenUp V useDs udp listenFd (.event nc rxBytes) ↔
      i ∈ l.givenUp ∧ ¬ InUse (l.step V useDs udp listenFd (.event nc rxBytes)).1.connPool i := by
  unfold Loop.nextGivenUp
  rw [List.mem_filter, decide_eq_true_iff]

/-- An EXIT gives up the slot that it is read from. -/
theorem Loop.nextGivenUp_read {k : Nat} {conn : Conn} {env : Env}
    (hPc : l.server.worker.pc = .readAgain k) (hSlot : l.server.worker.connPool[k]? = some conn)
    (ds : Segments) :
    l.nextGivenUp V useDs udp listenFd (.read env (.message ds)) =
      if conn.Exits V useDs env ds then k :: l.givenUp else l.givenUp := by
  unfold Loop.nextGivenUp
  simp only [hPc, hSlot, Option.mem_some_iff, exists_eq_left']

/-- A new batch is for the sessions that are watched. -/
theorem Loop.Indexed.wait (h : l.Indexed udp) {events : Option (List EpollEvent)}
    (hEnabled : l.Enabled useDs (.wait events)) :
    ((eventLoop V useDs udp listenFd).next l (.wait events)).Indexed udp := by
  obtain ⟨hPc, -, hTags⟩ := hEnabled
  have hBatch : ∀ ev ∈ events.getD [], ∀ i, ev.tag = .client i → ev.slot udp = some i → i ∉ [] →
      InUse l.server.worker.connPool i := by
    intro ev hEv i hTag _ _
    obtain ⟨fd, hWatched⟩ := hTags ev hEv i hTag
    exact h.served.inUse hWatched
  have hNone : ∀ i ∈ [], ¬ InUse l.server.worker.connPool i := fun _ h => absurd h List.not_mem_nil
  cases events with
  | none => exact ⟨h.served, fun _ => hBatch, nofun, hNone⟩
  | some events => exact ⟨h.served, fun _ => hBatch, h.reading, hNone⟩

/-- An event's slot is in use when the event is looked at in order. -/
theorem Loop.Indexed.head (h : l.Indexed udp) {ev : EpollEvent} {rest : List EpollEvent}
    (hPc : l.server.worker.pc = .epollWait) (hBatch : l.batch = ev :: rest) {i : Nat}
    (hTag : ev.tag = .client i) (hSlot : ev.slot udp = some i)
    (hKept : ∀ i ∈ l.givenUp, ev.slot udp ≠ some i) : InUse l.server.worker.connPool i := by
  have hRunning : l.server.worker.pc.Running := by
    rw [hPc]
    trivial
  have hHere : ev ∈ l.batch := by
    rw [hBatch]
    exact List.mem_cons_self
  exact h.batch hRunning ev hHere i hTag hSlot fun hGivenUp => hKept i hGivenUp hSlot

/-- An event in order keeps the invariant: what it reads is in use. -/
theorem Loop.Indexed.event (h : l.Indexed udp) {nc : NewClient} {rxBytes : Nat}
    (hEnabled : l.Enabled useDs (.event nc rxBytes))
    (hOrderly : l.Orderly udp (.event nc rxBytes)) :
    ((eventLoop V useDs udp listenFd).next l (.event nc rxBytes)).Indexed udp := by
  obtain ⟨hPc, hSome, -⟩ := hEnabled
  have hRunning : l.server.worker.pc.Running := by
    rw [hPc]
    trivial
  obtain ⟨ev, rest, hBatch⟩ := List.exists_cons_of_ne_nil hSome
  have hStep : l.step V useDs udp listenFd (.event nc rxBytes) =
      vtsWorkerLoopEvent V udp listenFd l.server.worker ev nc rxBytes := by
    unfold Loop.step
    simp only [hBatch]
  have hHead : ev ∈ l.takes (.event nc rxBytes) := by
    change ev ∈ l.batch.head?
    rw [hBatch]
    rfl
  have hKept := (hOrderly ev hHead).2
  -- A slot that was in use, or is no longer given up, is in use after the event.
  have hLater : ∀ ev' ∈ l.batch.tail, ∀ i, ev'.tag = .client i → ev'.slot udp = some i →
      i ∉ l.nextGivenUp V useDs udp listenFd (.event nc rxBytes) →
      (InUse l.server.worker.connPool i →
        InUse (l.step V useDs udp listenFd (.event nc rxBytes)).1.connPool i) →
      InUse (l.step V useDs udp listenFd (.event nc rxBytes)).1.connPool i := by
    intro ev' hEv i hTag hSlot hNotGivenUp hKeep
    by_contra hFree
    have hOld : i ∉ l.givenUp := fun hGivenUp =>
      hNotGivenUp ((Loop.nextGivenUp_event nc rxBytes).mpr ⟨hGivenUp, hFree⟩)
    exact hFree (hKeep (h.batch hRunning ev' (List.mem_of_mem_tail hEv) i hTag hSlot hOld))
  have hGivenUp : ∀ i ∈ l.nextGivenUp V useDs udp listenFd (.event nc rxBytes),
      ¬ InUse (l.step V useDs udp listenFd (.event nc rxBytes)).1.connPool i :=
    fun i hIn => ((Loop.nextGivenUp_event nc rxBytes).mp hIn).2
  by_cases hDatagram : (udp && ev.epollin) = true
  · have hSame : l.step V useDs udp listenFd (.event nc rxBytes) = (l.server.worker,
        [.readSegments listenFd rxBytes, .freeSegments listenFd]) := by
      rw [hStep, vtsWorkerLoopEvent, if_pos hDatagram]
    rw [hSame] at hLater hGivenUp
    have hNext : (eventLoop V useDs udp listenFd).next l (.event nc rxBytes) =
        ⟨l.server, l.batch.tail, l.nextGivenUp V useDs udp listenFd (.event nc rxBytes)⟩ := by
      unfold eventLoop Loop.nextBatch
      simp only [hSame]
      rfl
    rw [hNext]
    exact ⟨h.served, fun _ ev' hEv i hTag hSlot hNot => hLater ev' hEv i hTag hSlot hNot id,
      h.reading, hGivenUp⟩
  · have hSame : l.step V useDs udp listenFd (.event nc rxBytes) =
        vtsWorkerEvent V l.server.worker ev nc := by
      rw [hStep, vtsWorkerLoopEvent, if_neg hDatagram]
    rw [hSame] at hLater hGivenUp
    have hNext : (eventLoop V useDs udp listenFd).next l (.event nc rxBytes) =
        ⟨⟨(vtsWorkerEvent V l.server.worker ev nc).1,
          (vtsWorkerEvent V l.server.worker ev nc).2.foldl Vcl.call l.server.vcl⟩,
          l.batch.tail, l.nextGivenUp V useDs udp listenFd (.event nc rxBytes)⟩ := by
      unfold eventLoop Loop.nextBatch
      simp only [hSame]
    rw [hNext]
    refine ⟨h.served.vtsWorkerEvent, fun _ ev' hEv i hTag hSlot hNot => ?_, fun i hReads => ?_,
      hGivenUp⟩
    · exact hLater ev' hEv i hTag hSlot hNot fun hInUse => hInUse.vtsWorkerEvent
    · obtain ⟨hTag, hHangUp, hIn⟩ := vtsWorkerEvent_reads hPc hReads
      have hSlot : ev.slot udp = some i := by
        unfold EpollEvent.slot
        rw [if_neg hDatagram, if_neg (by rw [hHangUp]; exact Bool.false_ne_true), hTag]
        exact if_pos hIn
      exact (h.head hPc hBatch hTag hSlot hKept).vtsWorkerEvent

theorem Loop.Indexed.read (h : l.Indexed udp) {env : Env} {result : ReadResult}
    (hEnabled : l.Enabled useDs (.read env result)) :
    ((eventLoop V useDs udp listenFd).next l (.read env result)).Indexed udp := by
  obtain ⟨k, hPc, -⟩ := hEnabled
  obtain ⟨conn, hSlot, hAlloc⟩ := h.reading k hPc
  have hBatch := h.batch (by rw [hPc]; trivial)
  have hNext : (eventLoop V useDs udp listenFd).next l (.read env result) =
      ⟨⟨(vtsWorkerRead V useDs l.server.worker k env result).1,
        (vtsWorkerRead V useDs l.server.worker k env result).2.foldl Vcl.call l.server.vcl⟩,
        l.batch, l.nextGivenUp V useDs udp listenFd (.read env result)⟩ := by
    unfold eventLoop Loop.step Server.step Loop.nextBatch
    simp only [hPc]
  rw [hNext]
  rcases vtsWorkerRead_cases V useDs hSlot hAlloc l.server.vcl env result with
    ⟨conn', hSame, hFd, hPool, hVcl, hStays, hReads⟩ |
    ⟨ds, conn', rfl, hExits, hFree, hPool, hVcl, hPc'⟩
  · have hGivenUp : l.nextGivenUp V useDs udp listenFd (.read env result) = l.givenUp := by
      cases result with
      | error connReset => rfl
      | message ds => rw [Loop.nextGivenUp_read hPc hSlot, if_neg (hStays ds rfl)]
    rw [hGivenUp]
    refine ⟨?_, fun _ ev hEv i hTag hEvSlot hNot => ?_, fun j hReading => ?_, fun i hIn => ?_⟩
    · rw [hPool, hVcl]
      exact h.served.set hSlot hSame hFd
    · rw [hPool]
      exact (inUse_set_same hSlot hSame).mpr (hBatch ev hEv i hTag hEvSlot hNot)
    · rw [hPool, ← hReads j hReading]
      exact (inUse_set_same hSlot hSame).mpr ⟨conn, hSlot, hAlloc⟩
    · rw [hPool]
      exact fun hInUse => h.givenUp i hIn ((inUse_set_same hSlot hSame).mp hInUse)
  · have hGivenUp : l.nextGivenUp V useDs udp listenFd (.read env (.message ds)) =
        k :: l.givenUp := by
      rw [Loop.nextGivenUp_read hPc hSlot, if_pos hExits]
    have hGone : ¬ InUse (l.server.worker.connPool.set k conn') k := by
      rw [inUse_set_self hSlot, hFree]
      exact Bool.false_ne_true
    rw [hGivenUp]
    refine ⟨?_, fun _ ev hEv i hTag hEvSlot hNot => ?_, fun j hReading => ?_, ?_⟩
    · rw [hPool, hVcl]
      exact h.served.release hSlot
    · obtain ⟨hOther, hOld⟩ := not_or.mp (mt List.mem_cons.mpr hNot)
      rw [hPool]
      exact (inUse_set_of_ne (Ne.symm hOther)).mpr (hBatch ev hEv i hTag hEvSlot hOld)
    · rw [hPc'] at hReading
      split_ifs at hReading
    · rw [hPool]
      refine List.forall_mem_cons.mpr ⟨hGone, fun i hIn hInUse => ?_⟩
      by_cases hEq : k = i
      · subst hEq
        exact hGone hInUse
      · exact h.givenUp i hIn ((inUse_set_of_ne hEq).mp hInUse)

theorem Loop.Indexed.next (h : l.Indexed udp) {input : LoopInput} (hEnabled : l.Enabled useDs input)
    (hOrderly : l.Orderly udp input) :
    ((eventLoop V useDs udp listenFd).next l input).Indexed udp := by
  cases input with
  | wait events => exact h.wait hEnabled
  | event nc rxBytes => exact h.event hEnabled hOrderly
  | read env result => exact h.read hEnabled

theorem Loop.Indexed.safe (h : l.Indexed udp) {input : LoopInput} (hEnabled : l.Enabled useDs input)
    (hOrderly : l.Orderly udp input) : l.IndexSafe V useDs udp listenFd input := by
  cases input with
  | wait events =>
      exact ⟨fun _ h => absurd h (Option.not_mem_none _), fun _ h => absurd h (Option.not_mem_none _)⟩
  | event nc rxBytes =>
      obtain ⟨ev, rest, hBatch⟩ := List.exists_cons_of_ne_nil hEnabled.2.1
      have hTakes : l.takes (.event nc rxBytes) = some ev := by
        change l.batch.head? = some ev
        rw [hBatch]
        rfl
      obtain ⟨hListener, hKept⟩ := hOrderly ev hTakes
      refine ⟨fun i hSlot => ?_, fun ev' hEv hTag => ?_⟩
      · have hSlot : ev.slot udp = some i := by
          unfold Loop.slot at hSlot
          simpa [hTakes] using hSlot
        cases hTag : ev.tag with
        | listener =>
            rw [hListener hTag] at hSlot
            cases hSlot
        | client k =>
            obtain rfl := slot_client hTag hSlot
            exact h.head hEnabled.1 hBatch hTag hSlot hKept
      · obtain rfl : ev = ev' := Option.some.inj (hTakes.symm.trans hEv)
        have hNone := hListener hTag
        have hStep : l.step V useDs udp listenFd (.event nc rxBytes) =
            vtsWorkerLoopEvent V udp listenFd l.server.worker ev nc rxBytes := by
          unfold Loop.step
          simp only [hBatch]
        rw [hStep]
        unfold EpollEvent.slot at hNone
        unfold vtsWorkerLoopEvent
        by_cases hDatagram : (udp && ev.epollin) = true
        · rw [if_pos hDatagram]
          exact ⟨by simp, Int.le_refl _⟩
        · have hHangUp : ¬ (ev.hup || ev.rdhup) = true := by
            intro hHangUp
            rw [if_neg hDatagram, if_pos hHangUp] at hNone
            cases hNone
          rw [if_neg hDatagram, vtsWorkerEvent, if_neg hHangUp, hTag]
          exact listener_vtsNewClient l.server.worker nc
  | read env result =>
      obtain ⟨k, hPc, -⟩ := hEnabled
      refine ⟨fun i hSlot => ?_, fun _ h => absurd h (Option.not_mem_none _)⟩
      unfold Loop.slot at hSlot
      rw [hPc] at hSlot
      obtain rfl : k = i := Option.some.inj hSlot
      exact h.reading k hPc

/-- At the start there is no batch and no client. -/
theorem indexed_initial (poolSize : Nat) : (Loop.initial V poolSize).Indexed udp where
  served _ _ h := absurd h List.not_mem_nil
  batch _ _ h := absurd h List.not_mem_nil
  reading := nofun
  givenUp _ h := absurd h List.not_mem_nil

/-- In every run of the loop, for either protocol and any batches, the slots
it uses are allocated ones of the pool, and the listener's events close and
count off no session, as long as no event it looks at is a hang-up of the
listener that gets to use a slot, or is for a slot that an EXIT has given up
earlier in the batch and that no new client was given since. -/
theorem indexSafe_of_orderly {poolSize : Nat} {inputs : List LoopInput}
    (hAdmits : (eventLoop V useDs udp listenFd).Admits (.initial V poolSize) inputs)
    (hOrderly : (eventLoop V useDs udp listenFd).Meets (Loop.Orderly udp)
      (.initial V poolSize) inputs) :
    (eventLoop V useDs udp listenFd).Meets (Loop.IndexSafe V useDs udp listenFd)
      (.initial V poolSize) inputs := by
  have hMeets := hAdmits.and hOrderly
  refine hMeets.meets_of_invariant (I := Loop.Indexed udp) ?_ ?_ (indexed_initial poolSize)
  · intro l input hInput h
    exact h.next hInput.1 hInput.2
  · intro l input hInput h
    exact h.safe hInput.1 hInput.2

/-- The loop takes two clients, the first of which sends an EXIT in a batch
with the hang-ups of both. It ends at that of the second, so that of the first
is not looked at. -/
theorem indexSafe_of_orderly_exit :
    let exit : VclTestCfg := { defaultCfg with test := .exit }
    let listener : EpollEvent := ⟨.listener, false, false, true⟩
    let inputs : List LoopInput :=
      [.wait (some [listener, listener]), .event ⟨true, 5, 0, {}, []⟩ 0,
        .event ⟨true, 6, 0, {}, []⟩ 0,
        .wait (some [⟨.client 0, false, false, true⟩, ⟨.client 1, true, true, false⟩,
          ⟨.client 0, true, true, false⟩]),
        .event ⟨true, 7, 0, {}, []⟩ 0, .read {} (.message ⟨packedApi.encode exit, []⟩),
        .event ⟨true, 7, 0, {}, []⟩ 0]
    (eventLoop packedApi false false 3).Meets (Loop.IndexSafe packedApi false false 3)
      (.initial packedApi 1) inputs := by
  intro exit listener inputs
  have hRun : (eventLoop packedApi false false 3).Admits (.initial packedApi 1) inputs ∧
      (eventLoop packedApi false false 3).Meets (Loop.Orderly false)
        (.initial packedApi 1) inputs := by
    decide +kernel
  exact indexSafe_of_orderly hRun.1 hRun.2

/-- A hang-up of the listener that gets to use a slot uses none of the pool. -/
theorem not_indexSafe_of_listener {ev : EpollEvent} {nc : NewClient} {rxBytes : Nat}
    (hPool : l.server.worker.connPool.length < 2 ^ 32) (hHead : l.batch.head? = some ev)
    (hTag : ev.tag = .listener) (hUses : ev.slot udp ≠ none) :
    ¬ l.IndexSafe V useDs udp listenFd (.event nc rxBytes) := by
  intro hSafe
  have hSlot : ev.slot udp = some (2 ^ 32 - 1) := by
    unfold EpollEvent.slot at hUses ⊢
    rw [hTag] at hUses ⊢
    split_ifs at hUses ⊢
    · exact absurd rfl hUses
    · rfl
    all_goals exact absurd rfl hUses
  have hTaken : l.slot udp (.event nc rxBytes) = some (2 ^ 32 - 1) := by
    rw [← hSlot]
    show (l.batch.head?).bind _ = _
    rw [hHead]
    rfl
  obtain ⟨conn, hConn, -⟩ := hSafe.1 _ hTaken
  have hLt := (List.getElem?_eq_some_iff.mp hConn).1
  omega

/-- An event for a slot given up earlier in the batch uses a slot that is not
allocated. -/
theorem not_indexSafe_of_stale (h : l.Indexed udp) {ev : EpollEvent} {nc : NewClient}
    {rxBytes i : Nat} (hHead : l.batch.head? = some ev) (hGivenUp : i ∈ l.givenUp)
    (hStale : ev.slot udp = some i) :
    ¬ l.IndexSafe V useDs udp listenFd (.event nc rxBytes) := by
  intro hSafe
  have hTaken : l.slot udp (.event nc rxBytes) = some i := by
    rw [← hStale]
    show (l.batch.head?).bind _ = _
    rw [hHead]
    rfl
  exact h.givenUp i hGivenUp (hSafe.1 i hTaken)

/-- A step of a run is safe just when it is orderly, if all before it were. -/
theorem indexSafe_iff_orderly {poolSize : Nat} {before : List LoopInput} {input : LoopInput}
    (hAdmits : (eventLoop V useDs udp listenFd).Admits (.initial V poolSize) (before ++ [input]))
    (hBefore : (eventLoop V useDs udp listenFd).Meets (Loop.Orderly udp)
      (.initial V poolSize) before)
    (hPool : ((eventLoop V useDs udp listenFd).run
      (.initial V poolSize) before).server.worker.connPool.length < 2 ^ 32) :
    ((eventLoop V useDs udp listenFd).run (.initial V poolSize) before).IndexSafe
        V useDs udp listenFd input ↔
      ((eventLoop V useDs udp listenFd).run (.initial V poolSize) before).Orderly udp input := by
  rw [Machine.admits_append, Machine.admits_cons] at hAdmits
  have hMeets := hAdmits.1.and hBefore
  have hIndexed := hMeets.invariant_run (I := Loop.Indexed udp)
    (fun l input hInput h => h.next hInput.1 hInput.2) (indexed_initial poolSize)
  refine ⟨fun hSafe => ?_, fun hOrderly => hIndexed.safe hAdmits.2.1 hOrderly⟩
  intro ev hTakes
  cases input with
  | wait events => cases hTakes
  | read env result => cases hTakes
  | event nc rxBytes =>
      refine ⟨fun hTag => ?_, fun i hGivenUp hStale => ?_⟩
      · by_contra hUses
        exact not_indexSafe_of_listener hPool hTakes hTag hUses hSafe
      · exact not_indexSafe_of_stale hIndexed hTakes hGivenUp hStale hSafe

/-- The first batch has a hang-up of the listener. -/
theorem not_indexSafe :
    ¬ ∀ (useDs udp : Bool) (listenFd : Int32) (poolSize : Nat) (inputs : List LoopInput),
      (eventLoop packedApi useDs udp listenFd).Admits (.initial packedApi poolSize) inputs →
      (eventLoop packedApi useDs udp listenFd).Meets
        (Loop.IndexSafe packedApi useDs udp listenFd) (.initial packedApi poolSize) inputs := by
  intro h
  let inputs : List LoopInput :=
    [.wait (some [⟨.listener, true, false, false⟩]), .event ⟨true, 5, 0, {}, []⟩ 0]
  have hAdmits : (eventLoop packedApi false false 3).Admits (.initial packedApi 1) inputs := by
    decide +kernel
  have hSafe := h false false 3 1 inputs hAdmits
  rw [Machine.meets_cons, Machine.meets_cons] at hSafe
  exact not_indexSafe_of_listener (by decide +kernel) rfl rfl (by decide) hSafe.2.1

end Runs

end DpdkPerf.VclTestServer
