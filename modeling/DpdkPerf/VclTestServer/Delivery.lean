import DpdkPerf.VclTestServer.Accounting
import DpdkPerf.VclTestServer.Protocol

/-! The reads of one connection while nothing else happens on its worker.
Such a run is part of a run of the worker, and when its messages are read
whole in copy mode it is a run of the protocol. -/
namespace DpdkPerf.VclTestServer

/-- One successful read, and the library's side of handling it. -/
structure Rx where
  env : Env := {}
  ds : Segments
  deriving DecidableEq, Repr

def Rx.msg (rx : Rx) : Bytes := rx.ds.data

/-- The loop can turn to the client in slot `i`, and the read fits. -/
def Worker.Receives (useDs : Bool) (i : Nat) (w : Worker) (rx : Rx) : Prop :=
  (w.pc = .epollWait ∨ w.pc = .readAgain i) ∧
    ∃ conn ∈ w.connPool[i]?, conn.isAlloc = true ∧ conn.Fits useDs rx.ds

instance (useDs : Bool) (i : Nat) (w : Worker) (rx : Rx) : Decidable (w.Receives useDs i rx) :=
  inferInstanceAs (Decidable (_ ∧ _))

/-- The worker as the client in slot `i` sees it. -/
def connection (V : VclTestApi) (useDs : Bool) (i : Nat) : Machine Worker Rx (Option Handled) where
  enabled := Worker.Receives useDs i
  next w rx := (vtsWorkerRead V useDs w i rx.env (.message rx.ds)).1
  output w rx := w.connPool[i]?.map fun conn =>
    vtsHandleMessage V useDs rx.env w.connPool i w.nfds conn rx.ds

instance (V : VclTestApi) (useDs : Bool) (i : Nat) (w : Worker) (rx : Rx) :
    Decidable ((connection V useDs i).enabled w rx) :=
  inferInstanceAs (Decidable (w.Receives useDs i rx))

section Steps

variable {V : VclTestApi} {useDs : Bool} {i : Nat} {w : Worker} {conn : Conn} (rx : Rx)

theorem connection_output (hSlot : w.connPool[i]? = some conn) :
    (connection V useDs i).output w rx =
      some (vtsHandleMessage V useDs rx.env w.connPool i w.nfds conn rx.ds) :=
  congrArg (Option.map _) hSlot

theorem connection_next (hSlot : w.connPool[i]? = some conn) :
    (connection V useDs i).next w rx =
      (let handled := vtsHandleMessage V useDs rx.env w.connPool i w.nfds conn rx.ds
      ⟨w.connPool.set i handled.conn, handled.nfds, pcAfter i rx.env handled⟩) :=
  congrArg Prod.fst (vtsWorkerRead_message hSlot)

/-- The record is the one its handler leaves. -/
theorem connection_slot (hSlot : w.connPool[i]? = some conn) :
    ((connection V useDs i).next w rx).connPool[i]? =
      some (vtsHandleMessage V useDs rx.env w.connPool i w.nfds conn rx.ds).conn := by
  rw [connection_next rx hSlot]
  exact List.getElem?_set_self (List.getElem?_eq_some_iff.mp hSlot).1

end Steps

section Server

variable {V : VclTestApi} {useDs : Bool} {i : Nat} {s : Server}

/-- The message that a step of the worker reads from the client in slot `i`. -/
def Server.clientRead (i : Nat) (s : Server) : Input → Option Rx
  | .read env (.message ds) => if s.worker.pc = .readAgain i then some ⟨env, ds⟩ else none
  | _ => none

/-- The slot is in use when the step is taken. -/
def Server.Serves (i : Nat) (s : Server) (_ : Input) : Prop :=
  ∃ conn ∈ s.worker.connPool[i]?, conn.isAlloc = true

instance (s : Server) (input : Input) : Decidable (s.Serves i input) :=
  inferInstanceAs (Decidable (∃ conn ∈ s.worker.connPool[i]?, conn.isAlloc = true))

/-- The messages that a run of the worker reads from slot `i`, and what
became of them. -/
def clientReads (V : VclTestApi) (useDs : Bool) (i : Nat) (s : Server) (inputs : List Input) :
    List Rx :=
  ((server V useDs).visits s inputs).filterMap fun visit => visit.1.clientRead i visit.2

def clientHandled (V : VclTestApi) (useDs : Bool) (i : Nat) (s : Server) (inputs : List Input) :
    List Handled :=
  ((server V useDs).visits s inputs).filterMap fun visit =>
    (visit.1.clientRead i visit.2).bind ((connection V useDs i).output visit.1.worker)

/-- A connection reads when the loop stands at it. -/
theorem clientRead_eq_some {input : Input} {rx : Rx} :
    s.clientRead i input = some rx ↔
      s.worker.pc = .readAgain i ∧ input = .read rx.env (.message rx.ds) := by
  cases input with
  | event ev nc => exact iff_of_false (fun h => by cases h) (fun h => by cases h.2)
  | read env result =>
      cases result with
      | error connReset => exact iff_of_false (fun h => by cases h) (fun h => by cases h.2)
      | message ds =>
          unfold Server.clientRead
          constructor
          · intro h
            split_ifs at h with hPc
            obtain rfl := Option.some.inj h
            exact ⟨hPc, rfl⟩
          · rintro ⟨hPc, hInput⟩
            cases hInput
            exact if_pos hPc

/-- The reads of a run are those of its first step and of the rest. -/
theorem clientReads_cons (input : Input) (rest : List Input) :
    clientReads V useDs i s (input :: rest) =
      (s.clientRead i input).toList ++ clientReads V useDs i ((server V useDs).next s input) rest := by
  unfold clientReads
  rw [Machine.visits, List.filterMap_cons]
  cases s.clientRead i input <;> rfl

theorem clientReads_append (first second : List Input) :
    clientReads V useDs i s (first ++ second) =
      clientReads V useDs i s first ++
        clientReads V useDs i ((server V useDs).run s first) second := by
  unfold clientReads
  rw [Machine.visits_append, List.filterMap_append]

/-- The inputs by which the worker comes to make one read of slot `i`. -/
def Server.deliver (s : Server) (i : Nat) (rx : Rx) : List Input :=
  let read := Input.read rx.env (.message rx.ds)
  if s.worker.pc = .readAgain i then [read]
  else [.event ⟨.client i, false, false, true⟩ ⟨false, -1, -1, {}, []⟩, read]

/-- The read of a message, whatever the worker did before it. -/
theorem server_readMessage (t : Server) {rx : Rx} {conn : Conn}
    (hSlot : s.worker.connPool[i]? = some conn) (hAlloc : conn.isAlloc = true)
    (hFits : conn.Fits useDs rx.ds) (hPool : t.worker.connPool = s.worker.connPool)
    (hNfds : t.worker.nfds = s.worker.nfds) (hVcl : t.vcl = s.vcl)
    (hReading : t.worker.pc = .readAgain i) :
    let handled := vtsHandleMessage V useDs rx.env s.worker.connPool i s.worker.nfds conn rx.ds
    (server V useDs).enabled t (.read rx.env (.message rx.ds)) ∧
      (server V useDs).next t (.read rx.env (.message rx.ds)) =
        ⟨(connection V useDs i).next s.worker rx, handled.calls.foldl Vcl.call s.vcl⟩ ∧
      (server V useDs).output t (.read rx.env (.message rx.ds)) = handled.calls ∧
      t.Serves i (.read rx.env (.message rx.ds)) ∧
      t.clientRead i (.read rx.env (.message rx.ds)) = some rx := by
  intro handled
  have hStep : t.step V useDs (.read rx.env (.message rx.ds)) =
      ((connection V useDs i).next s.worker rx, handled.calls) := by
    have hSlotT : t.worker.connPool[i]? = some conn := by rw [hPool, hSlot]
    rw [Server.step, hReading]
    show vtsWorkerRead V useDs t.worker i rx.env (.message rx.ds) = _
    rw [vtsWorkerRead_message hSlotT, connection_next rx hSlot, hPool, hNfds]
  refine ⟨⟨i, hReading, fun conn' ds hConn hDs => ?_⟩, ?_, congrArg Prod.snd hStep,
    ⟨conn, hPool.symm ▸ hSlot, hAlloc⟩, clientRead_eq_some.mpr ⟨hReading, rfl⟩⟩
  · rw [hPool, hSlot] at hConn
    obtain rfl := Option.some.inj hConn
    obtain rfl := ReadResult.message.inj hDs
    exact hFits
  · show Server.mk (t.step V useDs _).1 ((t.step V useDs _).2.foldl Vcl.call t.vcl) = _
    rw [hStep, hVcl]

/-- A message that is there can be delivered, and leads on as it does for the
connection alone. -/
theorem server_deliver {rx : Rx} {conn : Conn} (hSlot : s.worker.connPool[i]? = some conn)
    (hReceives : s.worker.Receives useDs i rx) (hWatched : ∃ fd, (fd, i) ∈ s.vcl.watched) :
    let handled := vtsHandleMessage V useDs rx.env s.worker.connPool i s.worker.nfds conn rx.ds
    (server V useDs).Admits s (s.deliver i rx) ∧
      (server V useDs).run s (s.deliver i rx) =
        ⟨(connection V useDs i).next s.worker rx, handled.calls.foldl Vcl.call s.vcl⟩ ∧
      ((server V useDs).trace s (s.deliver i rx)).flatten = handled.calls ∧
      (server V useDs).Meets (Server.Serves i) s (s.deliver i rx) ∧
      clientReads V useDs i s (s.deliver i rx) = [rx] := by
  intro handled
  obtain ⟨hPc, conn', hSlot', hAlloc, hFits⟩ := hReceives
  obtain rfl : conn = conn' := Option.some.inj (hSlot.symm.trans hSlot')
  unfold Server.deliver
  by_cases hReading : s.worker.pc = .readAgain i
  · obtain ⟨hEnabled, hNext, hOutput, hServes, hClient⟩ :=
      server_readMessage (V := V) s hSlot hAlloc hFits rfl rfl rfl hReading
    rw [if_pos hReading]
    refine ⟨(Machine.admits_cons ..).mpr ⟨hEnabled, Machine.admits_nil _⟩, hNext, ?_,
      (Machine.meets_cons ..).mpr ⟨hServes, Machine.meets_nil _⟩, ?_⟩
    · rw [Machine.trace_cons, hOutput]
      simp [handled]
    · rw [clientReads_cons, hClient]
      rfl
  · have hWait := hPc.resolve_right hReading
    obtain ⟨hEnabled, hNext, hOutput, hServes, hClient⟩ := server_readMessage (V := V)
      ((server V useDs).next s (.event ⟨.client i, false, false, true⟩ ⟨false, -1, -1, {}, []⟩))
      hSlot hAlloc hFits rfl rfl rfl rfl
    rw [if_neg hReading]
    refine ⟨?_, ?_, ?_, ?_, ?_⟩
    · rw [Machine.admits_cons, Machine.admits_cons]
      refine ⟨⟨hWait, fun j hTag => ?_, fun hAccept => absurd (by decide) hAccept⟩, hEnabled,
        Machine.admits_nil _⟩
      obtain rfl := Tag.client.inj hTag
      exact hWatched
    · rw [Machine.run_cons, Machine.run_cons, Machine.run_nil, hNext]
    · rw [Machine.trace_cons, Machine.trace_cons, hOutput]
      have hQuiet : (server V useDs).output s
          (.event ⟨.client i, false, false, true⟩ ⟨false, -1, -1, {}, []⟩) = [] := rfl
      rw [hQuiet]
      simp [handled]
    · rw [Machine.meets_cons, Machine.meets_cons]
      exact ⟨⟨conn, hSlot, hAlloc⟩, hServes, Machine.meets_nil _⟩
    · rw [clientReads_cons, clientReads_cons, hClient]
      rfl

/-- The calls of a run of one connection. -/
def handledCalls (trace : List (Option Handled)) : List Call :=
  trace.flatMap fun handled => (handled.map Handled.calls).getD []

/-- Every run of a watched connection is the worker's part of a run of the
server, with the same calls, in which the client is all the time there. -/
theorem connection_run_server {rxs : List Rx}
    (hAdmits : (connection V useDs i).Admits s.worker rxs)
    (hWatched : ∃ fd, (fd, i) ∈ s.vcl.watched) :
    ∃ inputs, (server V useDs).Admits s inputs ∧
      ((server V useDs).run s inputs).worker = (connection V useDs i).run s.worker rxs ∧
      ((server V useDs).trace s inputs).flatten =
        handledCalls ((connection V useDs i).trace s.worker rxs) ∧
      (server V useDs).Meets (Server.Serves i) s inputs ∧
      clientReads V useDs i s inputs = rxs := by
  induction rxs generalizing s with
  | nil => exact ⟨[], Machine.admits_nil s, rfl, rfl, Machine.meets_nil s, rfl⟩
  | cons rx rest ih =>
      rw [Machine.admits_cons] at hAdmits
      obtain ⟨hReceives, hRest⟩ := hAdmits
      obtain ⟨conn, hSlot, -⟩ := hReceives.2
      obtain ⟨hFirst, hRun, hTrace, hServes, hRead⟩ :=
        server_deliver (V := V) hSlot hReceives hWatched
      let handled := vtsHandleMessage V useDs rx.env s.worker.connPool i s.worker.nfds conn rx.ds
      have hMore : ∃ inputs, (server V useDs).Admits ((server V useDs).run s (s.deliver i rx)) inputs ∧
          ((server V useDs).run ((server V useDs).run s (s.deliver i rx)) inputs).worker =
            (connection V useDs i).run ((connection V useDs i).next s.worker rx) rest ∧
          ((server V useDs).trace ((server V useDs).run s (s.deliver i rx)) inputs).flatten =
            handledCalls ((connection V useDs i).trace
              ((connection V useDs i).next s.worker rx) rest) ∧
          (server V useDs).Meets (Server.Serves i) ((server V useDs).run s (s.deliver i rx)) inputs ∧
          clientReads V useDs i ((server V useDs).run s (s.deliver i rx)) inputs = rest := by
        rw [hRun]
        cases rest with
        | nil => exact ⟨[], Machine.admits_nil _, rfl, rfl, Machine.meets_nil _, rfl⟩
        | cons rx' rest =>
            have hAlloc : handled.conn.isAlloc = true := by
              obtain ⟨conn', hSlot', hAlloc, -⟩ := ((Machine.admits_cons ..).mp hRest).1.2
              have hSame := (connection_slot (V := V) rx hSlot).symm.trans hSlot'
              rwa [Option.some.inj hSame]
            have hVcl : handled.calls.foldl Vcl.call s.vcl = s.vcl := by
              rcases vcl_message s.vcl (messageCalls V useDs rx.env s.worker.connPool i conn
                s.worker.nfds rx.ds) with ⟨-, -, -, hVcl⟩ | ⟨-, hFree, -⟩
              · exact hVcl
              · exact absurd (hFree.symm.trans hAlloc) Bool.false_ne_true
            rw [hVcl]
            exact ih hRest hWatched
      obtain ⟨inputs, hAdmitsMore, hWorker, hCalls, hServesMore, hReadMore⟩ := hMore
      refine ⟨s.deliver i rx ++ inputs, (Machine.admits_append ..).mpr ⟨hFirst, hAdmitsMore⟩, ?_, ?_,
        (Machine.meets_append ..).mpr ⟨hServes, hServesMore⟩, ?_⟩
      · rw [Machine.run_append, hWorker, Machine.run_cons]
      · rw [Machine.trace_append, List.flatten_append, hTrace, hCalls, Machine.trace_cons,
          connection_output rx hSlot]
        rfl
      · rw [clientReads_append, hRead, hReadMore]
        rfl

end Server

section Protocol

variable {V : VclTestApi} {useDs : Bool} {i : Nat} {w : Worker} {rx : Rx} {v : View}

/-- The slot is as the protocol sees it, and while it has its client the
worker is counting it and running. -/
structure Shows (i : Nat) (w : Worker) (v : View) : Prop where
  slot : ∃ conn, w.connPool[i]? = some conn ∧ conn.view = v
  running : v.isAlloc = true → 0 < w.nfds ∧ (w.pc = .epollWait ∨ w.pc = .readAgain i)

/-- What the protocol can receive the worker can. -/
theorem Shows.receives (h : Shows i w v) (hReceives : v.Receives rx.msg) :
    w.Receives useDs i rx := by
  obtain ⟨conn, hSlot, rfl⟩ := h.slot
  obtain ⟨hAlloc, hLong, hFits⟩ := hReceives
  have hSome : rx.ds.data ≠ [] := List.length_pos_iff.mp (Nat.lt_of_lt_of_le (by decide) hLong)
  exact ⟨(h.running hAlloc).2, conn, hSlot, hAlloc, hSome, fun _ => hFits⟩

theorem Shows.of_receives (h : Shows i w v) (hReceives : w.Receives false i rx)
    (hLong : 4 ≤ rx.msg.length) : v.Receives rx.msg := by
  obtain ⟨conn, hSlot, rfl⟩ := h.slot
  obtain ⟨-, conn', hSlot', hAlloc, -, hFits⟩ := hReceives
  obtain rfl := Option.some.inj (hSlot.symm.trans hSlot')
  exact ⟨hAlloc, hLong, hFits rfl⟩

/-- The worker after a read, when the message leaves the connection as `v'`
and is counted off only if it takes the client away. -/
theorem Shows.of_handled {conn : Conn} {v' : View} (h : Shows i w v)
    (hSlot : w.connPool[i]? = some conn) (hAlloc : v'.isAlloc = true → v.isAlloc = true)
    (hView : (vtsHandleMessage V useDs rx.env w.connPool i w.nfds conn rx.ds).conn.view = v')
    (hNfds : v'.isAlloc = true →
      (vtsHandleMessage V useDs rx.env w.connPool i w.nfds conn rx.ds).nfds = w.nfds) :
    Shows i ((connection V useDs i).next w rx) v' := by
  refine ⟨⟨_, connection_slot rx hSlot, hView⟩, fun hStill => ?_⟩
  have hCount := (h.running (hAlloc hStill)).1
  rw [connection_next rx hSlot]
  dsimp only
  have hSame := hNfds hStill
  exact ⟨by omega, pcAfter_running_iff.mpr fun hDone => by omega⟩

/-- One read of a message the protocol receives, in copy mode. -/
theorem Shows.next (h : Shows i w v) (hReceives : v.Receives rx.msg) :
    Shows i ((connection V false i).next w rx) ((protocol V).next v rx.msg) := by
  obtain ⟨conn, hSlot, rfl⟩ := h.slot
  obtain ⟨hAlloc, hLong, hFits⟩ := hReceives
  obtain ⟨-, hView, hNfds⟩ := refines_message V false rx.env w.connPool i w.nfds conn rx.ds
    hAlloc hLong hFits (Or.inl rfl)
  exact h.of_handled hSlot (fun _ => hAlloc) hView fun hStill => hNfds.trans (if_pos hStill)

/-- The route of a handled message, and what it wrote. -/
def Handled.reaction (handled : Handled) : Reaction :=
  ⟨handled.route, sentData handled.calls⟩

/-- In copy mode the worker's side of one message is the protocol's, up to
the bytes the library refuses to write. -/
theorem step_of_slot {conn : Conn} (hSlot : w.connPool[i]? = some conn)
    (hReceives : conn.view.Receives rx.msg) :
    (∃ next, ((connection V false i).next w rx).connPool[i]? = some next ∧
        next.view = (protocol V).next conn.view rx.msg) ∧
      ∃ handled, (connection V false i).output w rx = some handled ∧
        handled.reaction = ⟨((protocol V).output conn.view rx.msg).route,
          ((protocol V).output conn.view rx.msg).sent.map rx.env.written⟩ := by
  obtain ⟨hAlloc, hLong, hFits⟩ := hReceives
  obtain ⟨hRoute, hView, -⟩ := refines_message V false rx.env w.connPool i w.nfds conn rx.ds
    hAlloc hLong hFits (Or.inl rfl)
  have hSent := sentData_copy V rx.env w.connPool i w.nfds conn rx.ds hAlloc hLong hFits
  exact ⟨⟨_, connection_slot rx hSlot, hView⟩, _, connection_output rx hSlot,
    congrArg₂ Reaction.mk hRoute hSent⟩

/-- The runs of the protocol are the runs in copy mode whose messages are no
shorter than the magic word. -/
theorem Shows.admits_iff {rxs : List Rx} (h : Shows i w v) :
    (connection V false i).Admits w rxs ∧ (∀ rx ∈ rxs, 4 ≤ rx.msg.length) ↔
      (protocol V).Admits v (rxs.map Rx.msg) := by
  induction rxs generalizing w v with
  | nil => simp
  | cons rx rest ih =>
      rw [List.map_cons, Machine.admits_cons, Machine.admits_cons, List.forall_mem_cons]
      constructor
      · rintro ⟨⟨hReceives, hRest⟩, hLong, hLongRest⟩
        have hView := h.of_receives hReceives hLong
        exact ⟨hView, (ih (h.next hView)).mp ⟨hRest, hLongRest⟩⟩
      · rintro ⟨hView, hRest⟩
        obtain ⟨hMore, hLongRest⟩ := (ih (h.next hView)).mpr hRest
        exact ⟨⟨h.receives hView, hMore⟩, hView.2.1, hLongRest⟩

end Protocol

end DpdkPerf.VclTestServer
