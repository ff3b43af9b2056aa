import DpdkPerf.UdpEcho.Session
import Mathlib.Data.List.Basic

/-! Start-up of the udp-echo server. The attach and bind requests are sent
back to back; their replies are handled by the API thread, in any order and
between any two steps of `udp_server_test`. -/
namespace DpdkPerf.UdpEcho.StartUp

structure ApplicationAttachReply where
  retval : Int32
  segmentNameLength : UInt8
  appEventQueueAddress : Address
  deriving DecidableEq

/-- A reply of VPP. `rv` is what the local `svm_fifo_segment_attach` returns
when the handler calls it. -/
inductive ApiReply where
  | applicationAttach (mp : ApplicationAttachReply) (rv : Int32)
  | bindUri (retval : Int32)
  | unbindUri (retval : Int32)
  | applicationDetach (retval : Int32)
  deriving DecidableEq

/-- Where the main thread stands. `mq` is the local copy of
`our_event_queue` that `server_handle_event_queue` takes on entry. -/
inductive MainPc where
  /-- In `wait_for_state_change`, with both requests sent. -/
  | waitForStateChange
  /-- The wait returned -1 and `udp_server_test` gave up. -/
  | gaveUp
  /-- The wait returned 0. -/
  | enter
  /-- `while (utm->state != STATE_READY) sleep (5)`. -/
  | waitReady (mq : Address)
  /-- `svm_msg_q_sub (mq, ...)`. -/
  | reading (mq : Address)
  deriving DecidableEq

/-- `our_event_queue` is null at first. -/
structure Main where
  isConnected : Bool
  state : ConnectionState
  ourEventQueue : Address
  pc : MainPc
  deriving DecidableEq

def Main.initial (isConnected : Bool) : Main where
  isConnected := isConnected
  state := .start
  ourEventQueue := 0
  pc := .waitForStateChange

def applicationAttachReplyHandler (utm : Main) (mp : ApplicationAttachReply) (rv : Int32) : Main :=
  if mp.retval ≠ 0 then { utm with state := .failed }
  else if mp.segmentNameLength = 0 then utm
  else if rv ≠ 0 then utm
  else { utm with ourEventQueue := mp.appEventQueueAddress, state := .attached }

def bindUriReplyHandler (utm : Main) (retval : Int32) : Main :=
  if retval ≠ 0 then { utm with state := .failed } else { utm with state := .ready }

def handleReply (utm : Main) : ApiReply → Main
  | .applicationAttach mp rv => applicationAttachReplyHandler utm mp rv
  | .bindUri retval => bindUriReplyHandler utm retval
  | .unbindUri _ => { utm with state := .start }
  | .applicationDetach _ => { utm with state := .detached }

/-- The state `udp_server_test` waits for. -/
def Main.waitForState (utm : Main) : ConnectionState :=
  if utm.isConnected then .bound else .ready

/-- `poll` and `pollFailed` are the two tests of `wait_for_state_change` that
end it, `timeout` the end of its 600 seconds. -/
inductive Step where
  | reply (r : ApiReply)
  | poll
  | pollFailed
  | timeout
  | enter
  | startReading
  deriving DecidableEq

def enabled (utm : Main) : Step → Prop
  | .reply _ => True
  | .poll => utm.pc = .waitForStateChange ∧ utm.state = utm.waitForState
  | .pollFailed => utm.pc = .waitForStateChange ∧ utm.state = .failed
  | .timeout => utm.pc = .waitForStateChange
  | .enter => utm.pc = .enter
  | .startReading => (∃ mq, utm.pc = .waitReady mq) ∧ utm.state = .ready

def next (utm : Main) : Step → Main
  | .reply r => handleReply utm r
  | .poll => { utm with pc := .enter }
  | .pollFailed | .timeout => { utm with pc := .gaveUp }
  | .enter => { utm with pc := .waitReady utm.ourEventQueue }
  | .startReading =>
      match utm.pc with
      | .waitReady mq => { utm with pc := .reading mq }
      | _ => utm

def machine : Machine Main Step Unit where
  enabled := enabled
  next := next
  output _ _ := ()

/-- What the handler asserts of an attach reply: one that names its segment
delivers a queue. -/
def ApiReply.DeliversQueue : ApiReply → Prop
  | .applicationAttach mp _ =>
      mp.retval = 0 → mp.segmentNameLength ≠ 0 → mp.appEventQueueAddress ≠ 0
  | _ => True

instance : DecidablePred ApiReply.DeliversQueue
  | .applicationAttach _ _ => inferInstanceAs (Decidable (_ → _ → _))
  | .bindUri _ | .unbindUri _ | .applicationDetach _ => isTrue trivial

/-- The queue an attach reply delivers, if its segment is attached. -/
def ApiReply.attachedQueue : ApiReply → Option Address
  | .applicationAttach mp rv =>
      if mp.retval = 0 ∧ mp.segmentNameLength ≠ 0 ∧ rv = 0 then some mp.appEventQueueAddress
      else none
  | _ => none

def Step.reply? : Step → Option ApiReply
  | .reply r => some r
  | _ => none

/-- The replies of a run, in the order they are handled. -/
def replies (steps : List Step) : List ApiReply := steps.filterMap Step.reply?

def attachedQueues (rs : List ApiReply) : List Address :=
  rs.filterMap ApiReply.attachedQueue

/-- Whenever the server starts to read its queue, both the queue it reads
and `our_event_queue` were delivered by a reply that attached its segment, and
neither is null. -/
def QueueAttached (start : Main) (steps : List Step) : Prop :=
  ∀ before after, steps = before ++ .startReading :: after →
    (∃ q ∈ attachedQueues (replies before),
      q ≠ 0 ∧ (machine.run start before).ourEventQueue = q) ∧
    ∃ q ∈ attachedQueues (replies before),
      q ≠ 0 ∧ (machine.run start (before ++ [.startReading])).pc = .reading q

/-- No bind succeeds before the first attach whose segment is attached. -/
def BindsAfterAttach (rs : List ApiReply) : Prop :=
  ∀ before after, rs = before ++ .bindUri 0 :: after → attachedQueues before ≠ []

@[simp] theorem machine_next (utm : Main) (step : Step) : machine.next utm step = next utm step :=
  rfl

@[simp] theorem machine_enabled (utm : Main) (step : Step) :
    machine.enabled utm step ↔ enabled utm step :=
  Iff.rfl

@[simp] theorem replies_nil : replies [] = [] := rfl

@[simp] theorem replies_cons_reply (r : ApiReply) (rest : List Step) :
    replies (.reply r :: rest) = r :: replies rest := rfl

theorem replies_cons_of_none {step : Step} (h : step.reply? = none) (rest : List Step) :
    replies (step :: rest) = replies rest :=
  List.filterMap_cons_none h

@[simp] theorem replies_append (first second : List Step) :
    replies (first ++ second) = replies first ++ replies second :=
  List.filterMap_append

@[simp] theorem replies_map_reply (rs : List ApiReply) : replies (rs.map .reply) = rs := by
  induction rs with
  | nil => rfl
  | cons r rest ih => simpa [replies, Step.reply?] using ih

@[simp] theorem attachedQueues_append (first second : List ApiReply) :
    attachedQueues (first ++ second) = attachedQueues first ++ attachedQueues second :=
  List.filterMap_append

theorem attachedQueues_singleton (r : ApiReply) :
    attachedQueues [r] = r.attachedQueue.toList := by
  cases h : r.attachedQueue <;> simp [attachedQueues, h]

/-- A queue that is delivered with its segment attached is not null. -/
theorem ne_zero_of_mem_attachedQueues {rs : List ApiReply} (h : ∀ r ∈ rs, r.DeliversQueue)
    {q : Address} (hMem : q ∈ attachedQueues rs) : q ≠ 0 := by
  obtain ⟨r, hReply, hQueue⟩ := List.mem_filterMap.mp hMem
  cases r with
  | applicationAttach mp rv =>
      obtain ⟨⟨hRetval, hName, -⟩, hSame⟩ := Option.ite_none_right_eq_some.mp hQueue
      obtain rfl := Option.some.inj hSame
      exact h _ hReply hRetval hName
  | bindUri retval | unbindUri retval | applicationDetach retval => cases hQueue

theorem BindsAfterAttach.of_append {first second : List ApiReply}
    (h : BindsAfterAttach (first ++ second)) : BindsAfterAttach first := by
  rintro before after rfl
  exact h before (after ++ second) (by simp)

theorem BindsAfterAttach.last {rs : List ApiReply} (h : BindsAfterAttach (rs ++ [.bindUri 0])) :
    attachedQueues rs ≠ [] :=
  h rs [] rfl

/-- What an attach reply does: either it delivers its queue, or it leaves
`our_event_queue` alone and does not bring the state to READY. -/
theorem attach_cases (utm : Main) (mp : ApplicationAttachReply) (rv : Int32) :
    (ApiReply.attachedQueue (.applicationAttach mp rv) = some mp.appEventQueueAddress ∧
      applicationAttachReplyHandler utm mp rv =
        { utm with ourEventQueue := mp.appEventQueueAddress, state := .attached }) ∨
    (ApiReply.attachedQueue (.applicationAttach mp rv) = none ∧
      (applicationAttachReplyHandler utm mp rv = utm ∨
        applicationAttachReplyHandler utm mp rv = { utm with state := .failed })) := by
  unfold applicationAttachReplyHandler ApiReply.attachedQueue
  by_cases hRetval : mp.retval = 0
  · by_cases hName : mp.segmentNameLength = 0
    · simp [hRetval, hName]
    · by_cases hAttach : rv = 0
      · simp [hRetval, hName, hAttach]
      · simp [hRetval, hName, hAttach]
  · simp [hRetval]

/-- `our_event_queue` and its local copies come from successful attaches,
READY means that there was one, and a connected server is still waiting:
no reply brings the state to BOUND. -/
structure Invariant (isConnected : Bool) (past : List Step) (utm : Main) : Prop where
  mode : utm.isConnected = isConnected
  delivered : attachedQueues (replies past) ≠ [] →
    utm.ourEventQueue ∈ attachedQueues (replies past)
  notBound : utm.state ≠ .bound
  ready : isConnected = false → utm.state = .ready → attachedQueues (replies past) ≠ []
  waiting : isConnected = true → utm.pc = .waitForStateChange ∨ utm.pc = .gaveUp
  entered : utm.pc = .enter → attachedQueues (replies past) ≠ []
  copied : ∀ mq, utm.pc = .waitReady mq ∨ utm.pc = .reading mq →
    mq ∈ attachedQueues (replies past)

/-- No queue is known at the start. -/
theorem invariant_initial (isConnected : Bool) :
    Invariant isConnected [] (.initial isConnected) where
  mode := rfl
  delivered := by simp [replies, attachedQueues]
  notBound := by simp [Main.initial]
  ready := by simp [Main.initial]
  waiting _ := Or.inl rfl
  entered := by simp [Main.initial]
  copied := by simp [Main.initial]

/-- A reply that changes nothing but the state, and to READY only when the
queue is known, keeps the invariant. -/
theorem Invariant.setState {isConnected : Bool} {past : List Step} {utm : Main}
    (h : Invariant isConnected past utm) (r : ApiReply) (state : ConnectionState)
    (hNone : r.attachedQueue = none) (hBound : state ≠ .bound)
    (hReady : isConnected = false → state = .ready → attachedQueues (replies past) ≠ []) :
    Invariant isConnected (past ++ [.reply r]) { utm with state := state } := by
  have hQueues : attachedQueues (replies (past ++ [.reply r])) = attachedQueues (replies past) := by
    simp [attachedQueues_singleton, hNone]
  constructor
  · exact h.mode
  · rw [hQueues]
    exact h.delivered
  · exact hBound
  · rw [hQueues]
    exact hReady
  · exact h.waiting
  · rw [hQueues]
    exact h.entered
  · rw [hQueues]
    exact h.copied

/-- A reply that attaches its segment brings its queue into `our_event_queue`. -/
theorem Invariant.attach {isConnected : Bool} {past : List Step} {utm : Main}
    (h : Invariant isConnected past utm) (r : ApiReply) (q : Address)
    (hQueue : r.attachedQueue = some q) :
    Invariant isConnected (past ++ [.reply r])
      { utm with ourEventQueue := q, state := .attached } := by
  have hQueues : attachedQueues (replies (past ++ [.reply r])) =
      attachedQueues (replies past) ++ [q] := by
    simp [attachedQueues_singleton, hQueue]
  have hKnown : attachedQueues (replies (past ++ [.reply r])) ≠ [] := by
    rw [hQueues]
    exact List.append_ne_nil_of_right_ne_nil _ (List.cons_ne_nil q [])
  constructor
  · exact h.mode
  · intro _
    rw [hQueues]
    exact List.mem_append_right _ (List.mem_singleton_self q)
  · simp
  · exact fun _ _ => hKnown
  · exact h.waiting
  · exact fun _ => hKnown
  · intro mq hMq
    rw [hQueues]
    exact List.mem_append_left _ (h.copied mq hMq)

/-- A reply keeps the invariant, a successful bind only behind an attached
queue. -/
theorem Invariant.reply {isConnected : Bool} {past : List Step} {utm : Main}
    (h : Invariant isConnected past utm) (r : ApiReply)
    (hBind : isConnected = false → r = .bindUri 0 → attachedQueues (replies past) ≠ []) :
    Invariant isConnected (past ++ [.reply r]) (handleReply utm r) := by
  cases r with
  | applicationAttach mp rv =>
      rcases attach_cases utm mp rv with ⟨hQueue, hEq⟩ | ⟨hNone, hEq | hEq⟩
      · simp only [handleReply, hEq]
        exact h.attach _ _ hQueue
      · simp only [handleReply, hEq]
        exact h.setState _ utm.state hNone h.notBound h.ready
      · simp only [handleReply, hEq]
        exact h.setState _ .failed hNone (by simp) (by simp)
  | bindUri retval =>
      by_cases hRetval : retval = 0
      · subst hRetval
        exact h.setState _ .ready rfl (by simp) fun hMode _ => hBind hMode rfl
      · simp only [handleReply, bindUriReplyHandler, ne_eq, hRetval, not_false_eq_true, if_true]
        exact h.setState _ .failed rfl (by simp) (by simp)
  | unbindUri retval => exact h.setState _ .start rfl (by simp) (by simp)
  | applicationDetach retval => exact h.setState _ .detached rfl (by simp) (by simp)

/-- A step of the main thread moves its program counter only. -/
theorem Invariant.setPc {isConnected : Bool} {past : List Step} {utm : Main}
    (h : Invariant isConnected past utm) (step : Step) (hStep : step.reply? = none) (pc : MainPc)
    (hWaiting : isConnected = true → pc = .waitForStateChange ∨ pc = .gaveUp)
    (hEntered : pc = .enter → attachedQueues (replies past) ≠ [])
    (hCopied : ∀ mq, pc = .waitReady mq ∨ pc = .reading mq →
      mq ∈ attachedQueues (replies past)) :
    Invariant isConnected (past ++ [step]) { utm with pc := pc } := by
  have hReplies : replies (past ++ [step]) = replies past := by
    rw [replies_append, replies_cons_of_none hStep, replies_nil, List.append_nil]
  constructor
  · exact h.mode
  · rw [hReplies]
    exact h.delivered
  · exact h.notBound
  · rw [hReplies]
    exact h.ready
  · exact hWaiting
  · rw [hReplies]
    exact hEntered
  · rw [hReplies]
    exact hCopied

theorem Invariant.next {isConnected : Bool} {past : List Step} {utm : Main} {step : Step}
    (h : Invariant isConnected past utm) (hEnabled : enabled utm step)
    (hBind : isConnected = false → step = .reply (.bindUri 0) →
      attachedQueues (replies past) ≠ []) :
    Invariant isConnected (past ++ [step]) (next utm step) := by
  have hMode := h.mode
  cases step with
  | reply r => exact h.reply r fun hConnected hr => hBind hConnected (by rw [hr])
  | poll =>
      obtain ⟨-, hState⟩ := hEnabled
      cases isConnected with
      | true =>
          simp only [Main.waitForState, hMode, if_true] at hState
          exact absurd hState h.notBound
      | false =>
          simp only [Main.waitForState, hMode, Bool.false_eq_true, if_false] at hState
          exact h.setPc .poll rfl .enter (by simp) (fun _ => h.ready rfl hState) (by simp)
  | pollFailed => exact h.setPc .pollFailed rfl .gaveUp (by simp) (by simp) (by simp)
  | timeout => exact h.setPc .timeout rfl .gaveUp (by simp) (by simp) (by simp)
  | enter =>
      have hPc : utm.pc = .enter := hEnabled
      have hKnown := h.entered hPc
      apply h.setPc .enter rfl (.waitReady utm.ourEventQueue)
      · intro hConnected
        simpa [hPc] using h.waiting hConnected
      · simp
      · rintro mq (hMq | hMq)
        · obtain rfl : utm.ourEventQueue = mq := by simpa using hMq
          exact h.delivered hKnown
        · simp at hMq
  | startReading =>
      obtain ⟨⟨mq, hPc⟩, -⟩ := hEnabled
      have hCopied := h.copied mq (Or.inl hPc)
      simp only [StartUp.next, hPc]
      apply h.setPc .startReading rfl (.reading mq)
      · intro hConnected
        simpa [hPc] using h.waiting hConnected
      · simp
      · rintro mq' (hMq | hMq)
        · simp at hMq
        · obtain rfl : mq = mq' := by simpa using hMq
          exact hCopied

theorem invariant_run {isConnected : Bool} {steps : List Step}
    (hAdmits : machine.Admits (.initial isConnected) steps)
    (hBinds : isConnected = true ∨ BindsAfterAttach (replies steps)) :
    Invariant isConnected steps (machine.run (.initial isConnected) steps) := by
  have hRun := hAdmits.invariant_inputs fun past utm =>
    (isConnected = true ∨ BindsAfterAttach (replies past)) → Invariant isConnected past utm
  refine hRun ?_ (fun _ => invariant_initial isConnected) hBinds
  intro past utm step hEnabled h hPast
  have hBefore : isConnected = true ∨ BindsAfterAttach (replies past) := by
    rcases hPast with hMode | hPast
    · exact Or.inl hMode
    · rw [replies_append] at hPast
      exact Or.inr hPast.of_append
  apply (h hBefore).next hEnabled
  rintro rfl rfl
  rcases hPast with hMode | hPast
  · simp at hMode
  · simp only [replies_append] at hPast
    exact hPast.last

/-- What the server reads is what the invariant knows of its copy. -/
theorem queueAttached_of_binds {isConnected : Bool} {steps : List Step}
    (hQueues : ∀ r ∈ replies steps, r.DeliversQueue)
    (hAdmits : machine.Admits (.initial isConnected) steps)
    (hBinds : isConnected = true ∨ BindsAfterAttach (replies steps)) :
    QueueAttached (.initial isConnected) steps := by
  rintro before after rfl
  rw [Machine.admits_append] at hAdmits
  obtain ⟨hBefore, hStep⟩ := hAdmits
  rw [Machine.admits_cons] at hStep
  obtain ⟨⟨mq, hPc⟩, -⟩ := hStep.1
  have hInvariant : Invariant isConnected before (machine.run (.initial isConnected) before) := by
    apply invariant_run hBefore
    rw [replies_append] at hBinds
    exact hBinds.imp_right BindsAfterAttach.of_append
  have hEarlier : ∀ r ∈ replies before, r.DeliversQueue := by
    rw [replies_append] at hQueues
    exact fun r hMem => hQueues r (List.mem_append_left _ hMem)
  have hCopied := hInvariant.copied mq (Or.inl hPc)
  have hDelivered := hInvariant.delivered (List.ne_nil_of_mem hCopied)
  refine ⟨⟨_, hDelivered, ne_zero_of_mem_attachedQueues hEarlier hDelivered, rfl⟩, mq, hCopied,
    ne_zero_of_mem_attachedQueues hEarlier hCopied, ?_⟩
  simp [StartUp.next, hPc]

/-- Replies alone leave the main thread where it is. -/
theorem run_replies (utm : Main) (rs : List ApiReply) :
    machine.Admits utm (rs.map .reply) ∧ (machine.run utm (rs.map .reply)).pc = utm.pc ∧
      (machine.run utm (rs.map .reply)).isConnected = utm.isConnected := by
  induction rs generalizing utm with
  | nil => simp
  | cons r rest ih =>
      obtain ⟨hAdmits, hPc, hMode⟩ := ih (handleReply utm r)
      have hStep : (handleReply utm r).pc = utm.pc ∧
          (handleReply utm r).isConnected = utm.isConnected := by
        cases r with
        | applicationAttach mp rv =>
            rcases attach_cases utm mp rv with ⟨-, hEq⟩ | ⟨-, hEq | hEq⟩ <;>
              simp [handleReply, hEq]
        | bindUri retval =>
            simp only [handleReply, bindUriReplyHandler]
            split_ifs <;> simp
        | unbindUri retval => simp [handleReply]
        | applicationDetach retval => simp [handleReply]
      refine ⟨?_, hPc.trans hStep.1, hMode.trans hStep.2⟩
      rw [List.map_cons, Machine.admits_cons]
      exact ⟨trivial, hAdmits⟩

/-- The interleaving in which the main thread polls right after a bind: it
passes both waits and copies whatever `our_event_queue` is. -/
def promptPoll (before after : List ApiReply) : List Step :=
  (before.map .reply ++ [.reply (.bindUri 0), .poll, .enter]) ++
    .startReading :: after.map .reply

/-- The main thread may poll as soon as the replies are there. -/
theorem admits_promptPoll (before after : List ApiReply) :
    machine.Admits (.initial false) (promptPoll before after) := by
  obtain ⟨hBefore, hPc, hMode⟩ := run_replies (.initial false) before
  have hWaiting : (machine.run (.initial false) (before.map .reply)).pc = .waitForStateChange := hPc
  have hServer : (machine.run (.initial false) (before.map .reply)).isConnected = false := hMode
  simp only [promptPoll, List.append_assoc, Machine.admits_append, List.cons_append,
    List.nil_append, Machine.admits_cons]
  refine ⟨hBefore, trivial, ⟨?_, ?_⟩, rfl, ⟨⟨_, rfl⟩, ?_⟩, (run_replies _ _).1⟩
  · exact hWaiting
  · simp [StartUp.next, handleReply, bindUriReplyHandler, Main.waitForState, hServer]
  · simp [StartUp.next, handleReply, bindUriReplyHandler]

/-- Over every interleaving of the main thread with a given sequence of
replies, the queue that is read is an attached one exactly when the server is
a connected one, which never gets past its wait, or no bind succeeds before
the first successful attach. The replies are as the handler asserts them. -/
theorem queueAttached_iff_bindsAfterAttach (isConnected : Bool) {rs : List ApiReply}
    (hQueues : ∀ r ∈ rs, r.DeliversQueue) :
    (∀ steps, machine.Admits (.initial isConnected) steps → replies steps = rs →
      QueueAttached (.initial isConnected) steps) ↔
      isConnected = true ∨ BindsAfterAttach rs := by
  constructor
  · intro hAll
    cases isConnected with
    | true => exact Or.inl rfl
    | false =>
        refine Or.inr ?_
        rintro before after rfl hNone
        have hReplies : replies (promptPoll before after) = before ++ .bindUri 0 :: after := by
          simp only [promptPoll, List.append_assoc, List.cons_append, List.nil_append,
            replies_append, replies_map_reply, replies_cons_reply]
          exact congrArg (fun rest => before ++ .bindUri 0 :: rest) (replies_map_reply after)
        have hAttached := hAll _ (admits_promptPoll before after) hReplies _ _ rfl
        obtain ⟨⟨q, hMem, -, -⟩, -⟩ := hAttached
        have hNothing : attachedQueues (replies
            (before.map .reply ++ [.reply (.bindUri 0), .poll, .enter])) = [] := by
          rw [replies_append, replies_map_reply, attachedQueues_append, hNone]
          rfl
        rw [hNothing] at hMem
        exact List.not_mem_nil hMem
  · rintro hBinds steps hAdmits rfl
    exact queueAttached_of_binds hQueues hAdmits hBinds

/-- The attach succeeds before the bind: however the main thread runs, it reads
an attached queue. -/
theorem queueAttached_iff_attachThenBind :
    BindsAfterAttach [.applicationAttach ⟨0, 5, 4096⟩ 0, .bindUri 0] ∧
      ∀ steps, machine.Admits (.initial false) steps →
        replies steps = [.applicationAttach ⟨0, 5, 4096⟩ 0, .bindUri 0] →
        QueueAttached (.initial false) steps := by
  have hBinds : BindsAfterAttach [.applicationAttach ⟨0, 5, 4096⟩ 0, .bindUri 0] := by
    intro before after hReplies
    cases before with
    | nil => cases hReplies
    | cons first rest =>
        obtain ⟨rfl, -⟩ := List.cons_eq_cons.mp hReplies
        exact List.cons_ne_nil _ _
  exact ⟨hBinds, (queueAttached_iff_bindsAfterAttach false (by decide)).mpr (Or.inr hBinds)⟩

/-- A zero-length segment name leaves `our_event_queue` null without a
failure on record, so a successful bind lets the server read it. -/
theorem not_queueAttached :
    ¬ ∀ steps, machine.Admits (.initial false) steps → (∀ r ∈ replies steps, r.DeliversQueue) →
      QueueAttached (.initial false) steps := by
  intro hAll
  have hAttached := hAll (promptPoll [.applicationAttach ⟨0, 0, 4096⟩ 0] [])
    (admits_promptPoll _ _) (by decide) _ _ rfl
  obtain ⟨⟨q, hMem, -, -⟩, -⟩ := hAttached
  exact List.not_mem_nil hMem

end DpdkPerf.UdpEcho.StartUp
