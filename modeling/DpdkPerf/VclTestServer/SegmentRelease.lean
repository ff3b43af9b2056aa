import DpdkPerf.VclTestServer.Accounting

/-! The zero-copy discipline: a read of segments exposes bytes that stay in
the session until they are freed. -/
namespace DpdkPerf.VclTestServer

/-- The sessions whose segments are exposed, after one more call. No session
is read while its segments are exposed, and none is freed without. -/
def exposeCall (exposed : List Int32) : Call → Option (List Int32)
  | .readSegments fd _ => if fd ∈ exposed then none else some (fd :: exposed)
  | .freeSegments fd => if fd ∈ exposed then some (exposed.erase fd) else none
  | .close fd => some (exposed.erase fd)
  | _ => some exposed

/-- Every read of segments is followed by one release, or the close of its
session, before the session is read again. -/
def SegmentsReleased (calls : List Call) : Prop :=
  (calls.foldlM exposeCall []).isSome = true

/-- The same, and no segments are exposed in the end. -/
def SegmentsFreed (calls : List Call) : Prop :=
  calls.foldlM exposeCall [] = some []

theorem SegmentsFreed.released {calls : List Call} (h : SegmentsFreed calls) :
    SegmentsReleased calls := by
  rw [SegmentsReleased, show calls.foldlM exposeCall [] = some [] from h]
  rfl

theorem foldlM_append (first second : List Call) :
    (first ++ second).foldlM exposeCall [] =
      (first.foldlM exposeCall []).bind fun exposed => second.foldlM exposeCall exposed :=
  List.foldlM_append

/-- Calls that touch no session do not concern the monitor. -/
theorem foldlM_local {calls : List Call} (h : ∀ call ∈ calls, call.Local) (exposed : List Int32) :
    calls.foldlM exposeCall exposed = some exposed := by
  induction calls with
  | nil => rfl
  | cons call rest ih =>
      rw [List.forall_mem_cons] at h
      have hCall : exposeCall exposed call = some exposed := by
        cases call <;> first | rfl | exact h.1.elim
      rw [List.foldlM_cons, hCall]
      exact ih h.2

theorem exposeCall_read (fd : Int32) (count : Nat) :
    exposeCall [] (readCall true fd count) = some [fd] := rfl

theorem exposeCall_free (fd : Int32) : exposeCall [fd] (.freeSegments fd) = some [] := by
  simp [exposeCall]

/-- The segments of a message are released on two of the four routes, and are
left exposed on the others. -/
theorem exposed_message {conn : Conn} {nfds : Int} {count : Nat} {h : Handled}
    (hCalls : MessageCalls true conn nfds count h) :
    h.calls.foldlM exposeCall [] = some (if h.route.Releases then [] else [conn.fd]) := by
  cases hCalls with
  | kept before after hKeeps hNfds hCalls =>
      have hBefore : ∀ call ∈ before, call.Local :=
        fun call hCall => hKeeps.calls call (List.mem_append_left _ hCall)
      have hAfter : ∀ call ∈ after, call.Local :=
        fun call hCall => hKeeps.calls call (List.mem_append_right _ hCall)
      rw [hCalls, List.foldlM_cons, exposeCall_read]
      change List.foldlM exposeCall [conn.fd] _ = _
      rw [List.foldlM_append, List.foldlM_append, foldlM_local hBefore]
      by_cases hRoute : h.route.Releases
      · rw [if_pos hRoute, if_pos hRoute]
        change ((exposeCall [conn.fd] (.freeSegments conn.fd)).bind _).bind _ = _
        rw [exposeCall_free]
        exact foldlM_local hAfter []
      · rw [if_neg hRoute, if_neg hRoute]
        exact foldlM_local hAfter [conn.fd]
  | closed hRoute hAlloc hNfds hCalls =>
      rw [hCalls, List.foldlM_cons, exposeCall_read, hRoute]
      change (exposeCall [conn.fd] (.freeSegments conn.fd)).bind _ = _
      rw [exposeCall_free]
      rfl

variable (V : VclTestApi)

/-- The message is a config where one is expected, or it belongs to a UNI or
BI test. -/
def Conn.Releases (conn : Conn) (env : Env) (ds : Segments) : Prop :=
  let received := vtsConnRead true env conn ds
  (vtsConnExpectConfig received = true ∧
      hasMagic V (vtsConnReadConfig V true received) = true) ∨
    conn.cfg.test = .uni ∨ conn.cfg.test = .bi

instance (conn : Conn) (env : Env) (ds : Segments) : Decidable (conn.Releases V env ds) :=
  inferInstanceAs (Decidable (_ ∧ _ ∨ _ ∨ _))

/-- The same of the message a step reads, if it reads one. -/
def Server.ReadsReleased (s : Server) : Input → Prop
  | .read env (.message ds) =>
      match s.worker.pc with
      | .readAgain i => ∀ conn ∈ s.worker.connPool[i]?, conn.Releases V env ds
      | _ => True
  | _ => True

instance (s : Server) (input : Input) : Decidable (s.ReadsReleased V input) :=
  match input with
  | .event _ _ | .read _ (.error _) => .isTrue trivial
  | .read env (.message ds) =>
      match h : s.worker.pc with
      | .readAgain i => decidable_of_iff
          (∀ conn ∈ s.worker.connPool[i]?, conn.Releases V env ds) (by simp [Server.ReadsReleased, h])
      | .epollWait | .done | .fail | .fault => .isTrue (by simp [Server.ReadsReleased, h])

/-- What releases a message is told from the record and the message. -/
theorem releases_route (conn : Conn) (env : Env) (ds : Segments) :
    (route V true (vtsConnRead true env conn ds)).Releases ↔ conn.Releases V env ds := by
  rw [releases_iff, Conn.Releases, ← route_eq_handleCfg]
  by_cases hConfig : route V true (vtsConnRead true env conn ds) = .handleCfg
  · exact iff_of_true (Or.inl hConfig) (Or.inl hConfig)
  · exact or_congr_right (route_eq_serverRx hConfig)

/-- Calls that read no segments and free none. -/
def Call.Unexposing : Call → Prop
  | .readSegments _ _ | .freeSegments _ => False
  | _ => True

/-- Calls that expose nothing cannot fail. -/
theorem foldlM_unexposing {calls : List Call} (h : ∀ call ∈ calls, call.Unexposing)
    (exposed : List Int32) : (calls.foldlM exposeCall exposed).isSome = true := by
  induction calls generalizing exposed with
  | nil => rfl
  | cons call rest ih =>
      rw [List.forall_mem_cons] at h
      have hCall : ∃ exposed', exposeCall exposed call = some exposed' := by
        cases call <;> first | exact ⟨_, rfl⟩ | exact h.1.elim
      obtain ⟨exposed', hCall⟩ := hCall
      rw [List.foldlM_cons, hCall]
      exact ih h.2 exposed'

/-- A new client has nothing exposed. -/
theorem segmentsFreed_newClient (w : Worker) (nc : NewClient) :
    SegmentsFreed (vtsNewClient V w nc).2 := by
  rcases vtsNewClient_cases V w nc with ⟨-, hEq⟩ | ⟨-, n, i, conn, -, -, hEq⟩
  · rw [hEq]
    rfl
  · rw [hEq]
    split_ifs <;> rfl

theorem unexposing_newClient (w : Worker) (nc : NewClient) :
    ∀ call ∈ (vtsNewClient V w nc).2, call.Unexposing := by
  rcases vtsNewClient_cases V w nc with ⟨-, hEq⟩ | ⟨-, n, i, conn, -, -, hEq⟩
  · rw [hEq]
    exact fun _ h => absurd h List.not_mem_nil
  · rw [hEq]
    split_ifs <;> simp [Call.Unexposing]

theorem segmentsFreed_event (w : Worker) (ev : EpollEvent) (nc : NewClient) :
    SegmentsFreed (vtsWorkerEvent V w ev nc).2 := by
  unfold vtsWorkerEvent
  cases ev.hup || ev.rdhup with
  | true => cases w.connPool[ev.tag.index]? <;> rfl
  | false =>
      cases ev.tag with
      | listener => exact segmentsFreed_newClient V w nc
      | client index => cases ev.epollin <;> rfl

/-- No event is a violation, whatever segments are exposed. -/
theorem unexposing_event (w : Worker) (ev : EpollEvent) (nc : NewClient) :
    ∀ call ∈ (vtsWorkerEvent V w ev nc).2, call.Unexposing := by
  unfold vtsWorkerEvent
  cases ev.hup || ev.rdhup with
  | true => cases w.connPool[ev.tag.index]? <;> simp [Call.Unexposing]
  | false =>
      cases ev.tag with
      | listener => exact unexposing_newClient V w nc
      | client index => cases ev.epollin <;> simp

/-- A step that reads a message of a slot without releasing it. The session
stays open, and the worker waits for events. -/
structure Server.Exposes (s : Server) (input : Input) (i : Nat) (fd : Int32) : Prop where
  reads : s.worker.pc = .readAgain i
  exposed : ((server V true).output s input).foldlM exposeCall [] = some [fd]
  slot : ∃ conn, ((server V true).next s input).worker.connPool[i]? = some conn ∧ conn.fd = fd
  waits : ((server V true).next s input).worker.pc = .epollWait
  vcl : ((server V true).next s input).vcl = s.vcl

/-- A step leaves no segments exposed, unless it reads a message that is not
released. -/
theorem segmentsFreed_or_exposes {s : Server} {input : Input} (hEnabled : s.Enabled true input) :
    (SegmentsFreed ((server V true).output s input) ∧ s.ReadsReleased V input) ∨
      (∃ i fd, s.Exposes V input i fd) ∧ ¬ s.ReadsReleased V input := by
  cases input with
  | event ev nc => exact .inl ⟨segmentsFreed_event V s.worker ev nc, trivial⟩
  | read env result =>
      obtain ⟨i, hPc, -⟩ := hEnabled
      have hStep : s.step V true (.read env result) = vtsWorkerRead V true s.worker i env result := by
        rw [Server.step, hPc]
      cases result with
      | error connReset =>
          refine .inl ⟨?_, trivial⟩
          show SegmentsFreed (s.step V true _).2
          rw [hStep]
          unfold vtsWorkerRead
          cases s.worker.connPool[i]? <;> rfl
      | message ds =>
          cases hSlot : s.worker.connPool[i]? with
          | none =>
              refine .inl ⟨?_, by simp [Server.ReadsReleased, hPc, hSlot]⟩
              show SegmentsFreed (s.step V true _).2
              rw [hStep]
              unfold vtsWorkerRead
              rw [hSlot]
              rfl
          | some conn =>
              rw [vtsWorkerRead_message hSlot] at hStep
              have hExposed := exposed_message
                (messageCalls V true env s.worker.connPool i conn s.worker.nfds ds)
              have hReleased : s.ReadsReleased V (.read env (.message ds)) ↔
                  (vtsHandleMessage V true env s.worker.connPool i s.worker.nfds conn
                    ds).route.Releases := by
                rw [vtsHandleMessage_route, releases_route]
                simp only [Server.ReadsReleased, hPc, hSlot, Option.mem_some_iff, forall_eq']
              have hOutput : (server V true).output s (.read env (.message ds)) =
                  (vtsHandleMessage V true env s.worker.connPool i s.worker.nfds conn ds).calls :=
                congrArg Prod.snd hStep
              rw [← hOutput] at hExposed
              by_cases hRoute : (vtsHandleMessage V true env s.worker.connPool i s.worker.nfds conn
                  ds).route.Releases
              · rw [if_pos hRoute] at hExposed
                exact .inl ⟨hExposed, hReleased.mpr hRoute⟩
              · rw [if_neg hRoute] at hExposed
                have hKept := (vcl_message s.vcl (messageCalls V true env s.worker.connPool i conn
                  s.worker.nfds ds)).resolve_right fun hClosed => hRoute (by
                    rw [hClosed.1]
                    trivial)
                refine .inr ⟨⟨i, conn.fd, hPc, hExposed, ?_, ?_, ?_⟩, mt hReleased.mp hRoute⟩
                · show ∃ conn', (s.step V true _).1.connPool[i]? = some conn' ∧ _
                  rw [hStep]
                  exact ⟨_, List.getElem?_set_self (List.getElem?_eq_some_iff.mp hSlot).1,
                    hKept.2.1⟩
                · show (s.step V true _).1.pc = .epollWait
                  rw [hStep]
                  show pcAfter i env _ = .epollWait
                  unfold pcAfter
                  revert hRoute
                  cases (vtsHandleMessage V true env s.worker.connPool i s.worker.nfds conn
                      ds).route with
                  | handleCfg | serverRx => exact fun hRoute => absurd trivial hRoute
                  | serverEcho | notDrained => exact fun _ => rfl
                · show (s.step V true _).2.foldl Vcl.call s.vcl = s.vcl
                  rw [hStep]
                  exact hKept.2.2.2

/-- A step leaves nothing exposed if and only if the message it reads is one
that is released. -/
theorem segmentsFreed_next {s : Server} {input : Input} (hEnabled : s.Enabled true input) :
    SegmentsFreed ((server V true).output s input) ↔ s.ReadsReleased V input := by
  rcases segmentsFreed_or_exposes V hEnabled with hFreed | ⟨⟨i, fd, hExposes⟩, hNot⟩
  · exact iff_of_true hFreed.1 hFreed.2
  · refine iff_of_false ?_ hNot
    rw [SegmentsFreed, hExposes.exposed]
    exact fun h => absurd (Option.some.inj h) (List.cons_ne_nil _ _)

/-- The session that is read is watched. -/
def Server.ReadsWatched (s : Server) : Prop :=
  ∀ i, s.worker.pc = .readAgain i → ∃ fd, (fd, i) ∈ s.vcl.watched

/-- Each step stands at a session that is watched. -/
theorem readsWatched_next {s : Server} {input : Input} (hEnabled : s.Enabled true input)
    (h : s.ReadsWatched) : ((server V true).next s input).ReadsWatched := by
  intro j hNext
  cases input with
  | event ev nc =>
      obtain ⟨hWait, hTag, -⟩ := hEnabled
      have hIndex : ev.tag = .client j ∧ (vtsWorkerEvent V s.worker ev nc).2 = [] := by
        change (vtsWorkerEvent V s.worker ev nc).1.pc = .readAgain j at hNext
        unfold vtsWorkerEvent at hNext ⊢
        cases hHup : ev.hup || ev.rdhup with
        | true =>
            rw [hHup, if_pos rfl] at hNext
            cases hSlot : s.worker.connPool[ev.tag.index]? with
            | none =>
                rw [hSlot] at hNext
                cases hNext
            | some conn =>
                rw [hSlot] at hNext
                dsimp only at hNext
                split_ifs at hNext
        | false =>
            rw [hHup, if_neg Bool.false_ne_true] at hNext
            cases hTag' : ev.tag with
            | listener =>
                rw [hTag'] at hNext
                dsimp only at hNext
                have hSame : (vtsNewClient V s.worker nc).1.pc = s.worker.pc := by
                  rcases vtsNewClient_cases V s.worker nc with ⟨-, hEq⟩ | ⟨-, n, i, conn, -, -, hEq⟩
                  · rw [hEq]
                  · rw [hEq]
                    split_ifs <;> rfl
                rw [hSame, hWait] at hNext
                cases hNext
            | client index =>
                rw [hTag'] at hNext
                dsimp only at hNext
                split_ifs at hNext with hIn
                obtain rfl := WorkerPc.readAgain.inj hNext
                exact ⟨rfl, by simp [hIn]⟩
      obtain ⟨fd, hWatched⟩ := hTag j hIndex.1
      refine ⟨fd, ?_⟩
      show (fd, j) ∈ ((vtsWorkerEvent V s.worker ev nc).2.foldl Vcl.call s.vcl).watched
      rw [hIndex.2]
      exact hWatched
  | read env result =>
      obtain ⟨i, hPc, -⟩ := hEnabled
      have hStep : s.step V true (.read env result) = vtsWorkerRead V true s.worker i env result := by
        rw [Server.step, hPc]
      change (s.step V true (.read env result)).1.pc = .readAgain j at hNext
      show ∃ fd, (fd, j) ∈ ((s.step V true (.read env result)).2.foldl Vcl.call s.vcl).watched
      rw [hStep] at hNext ⊢
      cases hSlot : s.worker.connPool[i]? with
      | none =>
          unfold vtsWorkerRead at hNext
          rw [hSlot] at hNext
          cases hNext
      | some conn =>
          cases result with
          | error connReset =>
              unfold vtsWorkerRead at hNext
              rw [hSlot] at hNext
              dsimp only at hNext
              split_ifs at hNext
          | message ds =>
              rw [vtsWorkerRead_message hSlot] at hNext ⊢
              obtain ⟨hRoute, rfl⟩ := pcAfter_readAgain hNext
              rcases vcl_message s.vcl
                (messageCalls V true env s.worker.connPool i conn s.worker.nfds ds) with
                ⟨-, -, -, hVcl⟩ | ⟨hConfig, -⟩
              · rw [hVcl]
                exact h i hPc
              · exact absurd (hRoute.symm.trans hConfig) Route.noConfusion

/-- After a message that is not released its session can be read again, while
its segments are exposed. -/
theorem exists_reread {s : Server} {input : Input} {i : Nat} {fd : Int32}
    (hExposes : s.Exposes V input i fd) (hWatched : s.ReadsWatched) :
    ∃ again, again.length = 2 ∧ (server V true).Admits ((server V true).next s input) again ∧
      ¬ SegmentsReleased ((server V true).trace s (input :: again)).flatten := by
  obtain ⟨conn, hSlot, rfl⟩ := hExposes.slot
  let t := (server V true).next s input
  let ready : Input := .event ⟨.client i, false, false, true⟩ ⟨false, -1, -1, {}, []⟩
  let byte : Segments := ⟨[0], []⟩
  let t' := (server V true).next t ready
  have hOutput : (server V true).output t' (.read {} (.message byte)) =
      (vtsHandleMessage V true {} t.worker.connPool i t.worker.nfds conn byte).calls := by
    show (vtsWorkerRead V true t'.worker i {} (.message byte)).2 = _
    have hSlot' : t'.worker.connPool[i]? = some conn := hSlot
    rw [vtsWorkerRead_message hSlot']
    rfl
  have hRead : ∃ more, (server V true).output t' (.read {} (.message byte)) =
      .readSegments conn.fd byte.data.length :: more := by
    rw [hOutput]
    cases messageCalls V true {} t.worker.connPool i conn t.worker.nfds byte with
    | kept before after hKeeps hNfds hCalls => exact ⟨_, hCalls⟩
    | closed hRoute hAlloc hNfds hCalls => exact ⟨_, hCalls⟩
  obtain ⟨more, hMore⟩ := hRead
  refine ⟨[ready, .read {} (.message byte)], rfl, ?_, ?_⟩
  · rw [Machine.admits_cons, Machine.admits_cons]
    refine ⟨⟨hExposes.waits, fun j hTag => ?_, fun hAccept => absurd (by decide) hAccept⟩,
      ⟨i, rfl, fun conn ds hConn hDs => ?_⟩, Machine.admits_nil _⟩
    · obtain rfl := Tag.client.inj hTag
      rw [hExposes.vcl]
      exact hWatched i hExposes.reads
    · obtain rfl := ReadResult.message.inj hDs
      exact ⟨List.cons_ne_nil _ _, fun h => absurd h.symm Bool.false_ne_true⟩
  · have hTrace : ((server V true).trace s
        [input, ready, .read {} (.message byte)]).flatten =
          (server V true).output s input ++
            .readSegments conn.fd byte.data.length :: more := by
      rw [Machine.trace_cons, Machine.trace_cons, Machine.trace_cons, hMore]
      exact congrArg (_ ++ ·) (List.append_nil _)
    rw [SegmentsReleased, hTrace, foldlM_append, hExposes.exposed]
    show ¬ (List.foldlM exposeCall [conn.fd] _).isSome = true
    rw [List.foldlM_cons, exposeCall, if_pos (List.mem_singleton_self _)]
    exact Bool.false_ne_true

/-- Two steps from a state in which no segments are exposed. -/
theorem segmentsReleased_two {s : Server} {again : List Input}
    (hAdmits : (server V true).Admits s again) (hLength : again.length ≤ 2) :
    SegmentsReleased ((server V true).trace s again).flatten := by
  have hOne {t : Server} {input : Input} (hEnabled : t.Enabled true input) :
      SegmentsReleased ((server V true).output t input) := by
    rcases segmentsFreed_or_exposes V hEnabled with ⟨hFreed, -⟩ | ⟨⟨i, fd, hExposes⟩, -⟩
    · exact hFreed.released
    · rw [SegmentsReleased, hExposes.exposed]
      rfl
  rcases again with _ | ⟨first, _ | ⟨second, _ | ⟨third, more⟩⟩⟩
  · rfl
  · rw [Machine.admits_cons] at hAdmits
    have hTrace : ((server V true).trace s [first]).flatten = (server V true).output s first :=
      List.append_nil _
    rw [hTrace]
    exact hOne hAdmits.1
  · rw [Machine.admits_cons, Machine.admits_cons] at hAdmits
    obtain ⟨hFirst, hSecond, -⟩ := hAdmits
    have hTrace : ((server V true).trace s [first, second]).flatten =
        (server V true).output s first ++
          (server V true).output ((server V true).next s first) second :=
      congrArg (_ ++ ·) (List.append_nil _)
    rw [hTrace, SegmentsReleased, foldlM_append]
    rcases segmentsFreed_or_exposes V hFirst with ⟨hFreed, -⟩ | ⟨⟨i, fd, hExposes⟩, -⟩
    · rw [show _ = some [] from hFreed]
      exact hOne hSecond
    · rw [hExposes.exposed]
      cases second with
      | event ev nc => exact foldlM_unexposing (unexposing_event V _ ev nc) [fd]
      | read env result =>
          obtain ⟨j, hReading, -⟩ := hSecond
          exact absurd (hExposes.waits.symm.trans hReading) WorkerPc.noConfusion
  · exact absurd hLength (by simp)

/-- In zero-copy mode, in a run and however it goes on by two more steps, each
segment read is followed by one release before the session is read again,
unless it is closed first, exactly if each message that the run reads is a
config where one is expected or arrives in a UNI or BI test. Text that is
echoed and bytes that are not drained keep their segments, and are read
again. -/
theorem segmentsReleased_iff {poolSize : Nat} {inputs : List Input}
    (hAdmits : (server V true).Admits (.initial V poolSize) inputs) :
    (∀ before, before <+: inputs → ∀ again, again.length ≤ 2 →
        (server V true).Admits (.initial V poolSize) (before ++ again) →
        SegmentsReleased ((server V true).trace (.initial V poolSize) (before ++ again)).flatten) ↔
      (server V true).Meets (Server.ReadsReleased V) (.initial V poolSize) inputs := by
  have hRests (run : List Input) (hRun : (server V true).Admits (.initial V poolSize) run) :
      (server V true).Meets (Server.ReadsReleased V) (.initial V poolSize) run →
        SegmentsFreed ((server V true).trace (.initial V poolSize) run).flatten := fun hMeets =>
    (Machine.monitor_rests_iff (N := server V true) exposeCall [] (.initial V poolSize) run).mpr
      (fun v hVisit => (segmentsFreed_next V (hRun v hVisit)).mpr (hMeets v hVisit)) run
      (List.prefix_refl run)
  have hSplit (run again : List Input) :
      ((server V true).trace (.initial V poolSize) (run ++ again)).flatten.foldlM exposeCall [] =
        (((server V true).trace (.initial V poolSize) run).flatten.foldlM exposeCall []).bind
          fun exposed => ((server V true).trace ((server V true).run (.initial V poolSize) run)
            again).flatten.foldlM exposeCall exposed := by
    rw [Machine.trace_append, List.flatten_append, foldlM_append]
  constructor
  · intro h
    induction inputs using List.reverseRecOn with
    | nil => exact Machine.meets_nil _
    | append_singleton run input ih =>
        have hAll := hAdmits
        rw [Machine.admits_append, Machine.admits_cons] at hAdmits
        obtain ⟨hRun, hEnabled, -⟩ := hAdmits
        have hMeets := ih hRun fun before hBefore =>
          h before (hBefore.trans (List.prefix_append run [input]))
        rw [Machine.meets_append, Machine.meets_cons]
        refine ⟨hMeets, ?_, Machine.meets_nil _⟩
        rcases segmentsFreed_or_exposes V hEnabled with hFreed | ⟨⟨i, fd, hExposes⟩, -⟩
        · exact hFreed.2
        · have hWatched : ((server V true).run (.initial V poolSize) run).ReadsWatched :=
            hRun.invariant_run (fun _ _ hStep h => readsWatched_next V hStep h) nofun
          obtain ⟨again, hLength, hAgain, hNot⟩ := exists_reread V hExposes hWatched
          have hTwice := h (run ++ [input]) (List.prefix_refl _) again hLength.le
            ((Machine.admits_append ..).mpr ⟨hAll, by rw [Machine.run_append]; exact hAgain⟩)
          rw [List.append_assoc, SegmentsReleased, hSplit, show _ = some [] from hRests run hRun hMeets]
            at hTwice
          exact absurd hTwice hNot
  · intro hMeets before hBefore again hLength hBoth
    obtain ⟨after, rfl⟩ := hBefore
    rw [Machine.meets_append] at hMeets
    rw [Machine.admits_append] at hAdmits hBoth
    rw [SegmentsReleased, hSplit, show _ = some [] from hRests before hAdmits.1 hMeets.1]
    exact segmentsReleased_two V hBoth.2 hLength

/-- A config and a chunk of a UNI test, in two segments. -/
theorem segmentsReleased_iff_uni :
    let uni : VclTestCfg := { defaultCfg with test := .uni }
    let readable : EpollEvent := ⟨.client 0, false, false, true⟩
    let inputs : List Input :=
      [.event ⟨.listener, false, false, true⟩ ⟨true, 5, 0, {}, []⟩,
        .event readable ⟨true, 6, 0, {}, []⟩, .read {} (.message ⟨packedApi.encode uni, []⟩),
        .event readable ⟨true, 6, 0, {}, []⟩, .read {} (.message ⟨[1, 2, 3], [4, 5]⟩)]
    (server packedApi true).Meets (Server.ReadsReleased packedApi) (.initial packedApi 1) inputs ∧
      ∀ before, before <+: inputs → ∀ again, again.length ≤ 2 →
        (server packedApi true).Admits (.initial packedApi 1) (before ++ again) →
        SegmentsReleased
          ((server packedApi true).trace (.initial packedApi 1) (before ++ again)).flatten := by
  intro uni readable inputs
  have hRun : (server packedApi true).Admits (.initial packedApi 1) inputs ∧
      (server packedApi true).Meets (Server.ReadsReleased packedApi) (.initial packedApi 1)
        inputs := by
    decide +kernel
  obtain ⟨hAdmits, hReads⟩ := hRun
  exact ⟨hReads, (segmentsReleased_iff packedApi hAdmits).mpr hReads⟩

/-- A new client sends a text, which is echoed, and the worker reads the
session again without having freed the segments. -/
theorem not_segmentsReleased :
    ¬ ∀ (poolSize : Nat) (inputs : List Input),
      (server packedApi true).Admits (.initial packedApi poolSize) inputs →
      SegmentsReleased ((server packedApi true).trace (.initial packedApi poolSize) inputs).flatten := by
  intro h
  let readable : EpollEvent := ⟨.client 0, false, false, true⟩
  let text : ReadResult := .message ⟨[104, 105, 33, 33], []⟩
  let inputs : List Input :=
    [.event ⟨.listener, false, false, true⟩ ⟨true, 5, 0, {}, []⟩,
      .event readable ⟨true, 6, 0, {}, []⟩, .read {} text,
      .event readable ⟨true, 6, 0, {}, []⟩, .read {} text]
  have hRun : (server packedApi true).Admits (.initial packedApi 1) inputs ∧
      ((server packedApi true).trace (.initial packedApi 1) inputs).flatten.foldlM exposeCall [] =
        none := by
    decide +kernel
  obtain ⟨hAdmits, hTwice⟩ := hRun
  have hReleased := h 1 inputs hAdmits
  rw [SegmentsReleased, hTwice] at hReleased
  exact absurd hReleased Bool.false_ne_true

end DpdkPerf.VclTestServer
