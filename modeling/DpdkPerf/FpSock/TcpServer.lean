import DpdkPerf.Machine.Handles
import DpdkPerf.Machine.Run

/-! The TCP server of fp-sock. It accepts one client after another, sends each
the address it comes from, and closes its socket. What OFP answers is given,
with the sockets it has open. -/
namespace DpdkPerf.FpSock

abbrev Text := List Char

/-- What the server uses of OFP and ODP to print an address. -/
structure Printing where
  ofpPrintIpAddr : UInt32 → Text
  odpBeToCpu16 : UInt16 → UInt16

def tcpPort : UInt16 := 5000

/-- The size of `struct ofp_sockaddr_in`. -/
def sockaddrLen : UInt32 := 16

inductive SockOpt where
  | reuseAddr
  | reusePort
  deriving DecidableEq, Repr

inductive TcpCall where
  | initLocal
  | socket
  | setsockopt (fd : Int) (optname : SockOpt)
  | bind (fd : Int) (ip : UInt32) (port : UInt16)
  | listen (fd : Int) (backlog : Nat)
  | accept (fd : Int)
  | send (fd : Int) (buf : Text)
  | close (fd : Int)
  deriving DecidableEq, Repr

/-- What a call answers. The result of `ofp_setsockopt` is not looked at. -/
inductive TcpAnswer where
  | result (rv : Int)
  | accepted (cfd : Int) (addrLen : UInt32) (ip : UInt32) (port : UInt16)
  deriving DecidableEq, Repr

inductive TcpPc where
  | initLocal
  | socket
  | setsockopt (optname : SockOpt)
  | bind
  | listen
  | accept
  | send
  | close
  | returned (code : Int)
  deriving DecidableEq, Repr

/-- The variables of `tcp_main`, and the sockets that OFP has open. -/
structure TcpServer where
  pc : TcpPc := .initLocal
  fd : Int := 0
  ip : UInt32 := 0
  port : UInt16 := 0
  cfd : Int := 0
  openFds : Finset Int := ∅
  deriving DecidableEq

/-- A client that `accept_tcp` returns. -/
def TcpAnswer.Usable : TcpAnswer → Prop
  | result _ => False
  | accepted cfd addrLen _ _ => cfd ≠ -1 ∧ addrLen = sockaddrLen

instance : DecidablePred TcpAnswer.Usable
  | .result _ => isFalse id
  | .accepted _ _ _ _ => inferInstanceAs (Decidable (_ ∧ _))

/-- The text for a client. -/
def youAddress (print : Printing) (ip : UInt32) (port : UInt16) : Text :=
  "You address: ".toList ++ print.ofpPrintIpAddr ip ++
    ':' :: Nat.toDigits 10 (print.odpBeToCpu16 port).toNat

namespace TcpServer

variable (print : Printing)

/-- The call that is made next. -/
def call (s : TcpServer) : Option TcpCall :=
  match s.pc with
  | .initLocal => some .initLocal
  | .socket => some .socket
  | .setsockopt optname => some (.setsockopt s.fd optname)
  | .bind => some (.bind s.fd 0 tcpPort)
  | .listen => some (.listen s.fd 10)
  | .accept => some (.accept s.fd)
  | .send => some (.send s.cfd (youAddress print s.ip s.port))
  | .close => some (.close s.cfd)
  | .returned _ => none

/-- OFP gives a new socket a number that is not in use, and it fails with a
number that is of no open socket. -/
def Enabled (s : TcpServer) : TcpAnswer → Prop
  | .result rv =>
      match s.pc with
      | .socket => rv = -1 ∨ 0 ≤ rv ∧ rv ∉ s.openFds
      | .send | .close => s.cfd ∉ s.openFds → rv = -1
      | .accept | .returned _ => False
      | .initLocal | .setsockopt _ | .bind | .listen => True
  | .accepted cfd _ _ _ => s.pc = .accept ∧ (cfd = -1 ∨ 0 ≤ cfd ∧ cfd ∉ s.openFds)

instance : (s : TcpServer) → DecidablePred s.Enabled
  | _, .accepted _ _ _ _ => inferInstanceAs (Decidable (_ ∧ _))
  | ⟨.socket, _, _, _, _, _⟩, .result _ => inferInstanceAs (Decidable (_ ∨ _))
  | ⟨.send, _, _, _, _, _⟩, .result _ | ⟨.close, _, _, _, _, _⟩, .result _ =>
      inferInstanceAs (Decidable (_ → _))
  | ⟨.accept, _, _, _, _, _⟩, .result _ | ⟨.returned _, _, _, _, _, _⟩, .result _ => isFalse id
  | ⟨.initLocal, _, _, _, _, _⟩, .result _ | ⟨.setsockopt _, _, _, _, _, _⟩, .result _
  | ⟨.bind, _, _, _, _, _⟩, .result _ | ⟨.listen, _, _, _, _, _⟩, .result _ => isTrue trivial

def next (s : TcpServer) : TcpAnswer → TcpServer
  | .result rv =>
      match s.pc with
      | .initLocal => { s with pc := if rv ≠ 0 then .returned (-1) else .socket }
      | .socket =>
          if rv = -1 then { s with pc := .returned (-1), fd := rv }
          else { s with pc := .setsockopt .reuseAddr, fd := rv, openFds := insert rv s.openFds }
      | .setsockopt .reuseAddr => { s with pc := .setsockopt .reusePort }
      | .setsockopt .reusePort => { s with pc := .bind }
      | .bind => { s with pc := if rv = -1 then .returned (-1) else .listen }
      | .listen =>
          -- `init_sock` returns the socket, and 0 is taken for a failure.
          { s with pc := if rv = -1 ∨ s.fd ≤ 0 then .returned (-1) else .accept }
      | .send => { s with pc := .close }
      | .close =>
          if rv = -1 then { s with pc := .returned (-1) }
          else { s with pc := .accept, openFds := s.openFds.erase s.cfd }
      | .accept | .returned _ => s
  | .accepted cfd addrLen ip port =>
      let openFds := if cfd = -1 then s.openFds else insert cfd s.openFds
      if cfd ≠ -1 ∧ addrLen = sockaddrLen then
        { s with pc := .send, cfd := cfd, ip := ip, port := port, openFds := openFds }
      else { s with pc := .send, cfd := -1, ip := 0, port := 0, openFds := openFds }

end TcpServer

/-- `tcp_main`. -/
def tcpMain (print : Printing) : Machine TcpServer TcpAnswer (Option TcpCall) where
  enabled := TcpServer.Enabled
  next := TcpServer.next
  output s _ := s.call print

instance (print : Printing) (s : TcpServer) (a : TcpAnswer) :
    Decidable ((tcpMain print).enabled s a) :=
  inferInstanceAs (Decidable (s.Enabled a))

/-- The clients of a run, and failures to accept one. -/
def TcpAnswer.isAccepted : TcpAnswer → Bool
  | .result _ => false
  | .accepted _ _ _ _ => true

def accepts (answers : List TcpAnswer) : List TcpAnswer := answers.filter TcpAnswer.isAccepted

/-- The calls for a client. -/
def roundCalls (print : Printing) (fd : Int) (a : TcpAnswer) : List TcpCall :=
  match a with
  | .result _ => []
  | .accepted cfd addrLen ip port =>
      if cfd ≠ -1 ∧ addrLen = sockaddrLen then
        [.accept fd, .send cfd (youAddress print ip port), .close cfd]
      else [.accept fd, .send (-1) (youAddress print 0 0), .close (-1)]

namespace TcpServer

/-- The calls left of a round. -/
def remaining (print : Printing) (s : TcpServer) : List TcpCall :=
  match s.pc with
  | .send => [.send s.cfd (youAddress print s.ip s.port), .close s.cfd]
  | .close => [.close s.cfd]
  | _ => []

/-- What holds of the open sockets: no more than the listener and the client
that is served. A client that is of no use has the number -1. -/
def Sound (s : TcpServer) : Prop :=
  match s.pc with
  | .initLocal | .socket => s.openFds = ∅
  | .setsockopt _ | .bind | .listen => 0 ≤ s.fd ∧ s.openFds = {s.fd}
  | .accept => 0 < s.fd ∧ s.openFds = {s.fd}
  | .send | .close =>
      0 < s.fd ∧ (s.cfd = -1 ∧ -1 ∉ s.openFds ∨ s.cfd ∉ ({s.fd} : Finset Int) ∧ s.openFds = {s.cfd, s.fd})
  | .returned code => code = -1

/-- Past `init_sock`. -/
def Serving (s : TcpServer) : Prop :=
  match s.pc with
  | .accept | .send | .close | .returned _ => True
  | _ => False

section Steps

variable {s : TcpServer} {cfd rv : Int} {addrLen ip : UInt32} {port : UInt16}

theorem next_useful (h : cfd ≠ -1 ∧ addrLen = sockaddrLen) :
    s.next (.accepted cfd addrLen ip port) =
      { s with pc := .send, cfd := cfd, ip := ip, port := port, openFds := insert cfd s.openFds } := by
  simp only [next, if_pos h, if_neg h.1]

theorem next_useless (h : ¬ (cfd ≠ -1 ∧ addrLen = sockaddrLen)) :
    s.next (.accepted cfd addrLen ip port) =
      { s with pc := .send, cfd := -1, ip := 0, port := 0,
               openFds := if cfd = -1 then s.openFds else insert cfd s.openFds } :=
  if_neg h

theorem next_close_failed (hPc : s.pc = .close) (h : rv = -1) :
    s.next (.result rv) = { s with pc := .returned (-1) } := by
  simp only [next, hPc, if_pos h]

theorem next_closed (hPc : s.pc = .close) (h : rv ≠ -1) :
    s.next (.result rv) = { s with pc := .accept, openFds := s.openFds.erase s.cfd } := by
  simp only [next, hPc, if_neg h]

end Steps

/-- A client that is of no use has the number -1, and nothing is done for it. -/
def Failing (s : TcpServer) : Prop :=
  match s.pc with
  | .send | .close => s.cfd = -1 ∧ -1 ∉ s.openFds
  | .returned _ => True
  | _ => False

/-- An accept without a client of use leaves the number -1, which is of no open
socket. -/
theorem Sound.failing {s : TcpServer} {cfd : Int} {addrLen ip : UInt32} {port : UInt16}
    (h : s.Sound) (hEnabled : s.Enabled (.accepted cfd addrLen ip port))
    (hUseless : ¬ (cfd ≠ -1 ∧ addrLen = sockaddrLen)) :
    (s.next (.accepted cfd addrLen ip port)).Failing := by
  obtain ⟨pc, fd, ip', port', cfd', openFds⟩ := s
  obtain ⟨hPc, hNew⟩ := hEnabled
  obtain rfl : pc = .accept := hPc
  obtain ⟨hFd, rfl⟩ : 0 < fd ∧ openFds = {fd} := h
  have hNone : (-1 : Int) ∉ if cfd = -1 then ({fd} : Finset Int) else insert cfd {fd} := by
    split
    · rw [Finset.mem_singleton]
      omega
    · rw [Finset.mem_insert, Finset.mem_singleton]
      omega
  rw [next_useless hUseless]
  exact ⟨rfl, hNone⟩

/-- An accept leaves the listener, and the client if there is one. -/
theorem Sound.next_accepted {s : TcpServer} {cfd : Int} {addrLen ip : UInt32} {port : UInt16}
    (h : s.Sound) (hEnabled : s.Enabled (.accepted cfd addrLen ip port)) :
    (s.next (.accepted cfd addrLen ip port)).Sound := by
  by_cases hUseful : cfd ≠ -1 ∧ addrLen = sockaddrLen
  · obtain ⟨pc, fd, ip', port', cfd', openFds⟩ := s
    obtain ⟨hPc, hNew⟩ := hEnabled
    obtain rfl : pc = .accept := hPc
    obtain ⟨hFd, rfl⟩ : 0 < fd ∧ openFds = {fd} := h
    have hNotOpen : cfd ∉ ({fd} : Finset Int) := (hNew.resolve_left hUseful.1).2
    rw [next_useful hUseful]
    exact ⟨hFd, .inr ⟨hNotOpen, rfl⟩⟩
  · have hFailing := h.failing hEnabled hUseful
    have hFd : 0 < s.fd := by
      unfold Sound at h
      rw [hEnabled.1] at h
      exact h.1
    rw [next_useless hUseful] at hFailing ⊢
    exact ⟨hFd, .inl hFailing⟩

/-- The answer to a call keeps the sockets known. -/
theorem Sound.next_result {s : TcpServer} {rv : Int} (h : s.Sound)
    (hEnabled : s.Enabled (.result rv)) : (s.next (.result rv)).Sound := by
  obtain ⟨pc, fd, ip, port, cfd, openFds⟩ := s
  cases pc with
  | initLocal =>
      obtain rfl : openFds = ∅ := h
      simp only [TcpServer.next]
      split <;> rfl
  | socket =>
      obtain rfl : openFds = ∅ := h
      by_cases hFailed : rv = -1
      · simp only [TcpServer.next, if_pos hFailed]
        rfl
      · have hNonneg : 0 ≤ rv := (hEnabled.resolve_left hFailed).1
        simp only [TcpServer.next, if_neg hFailed]
        exact ⟨hNonneg, rfl⟩
  | setsockopt optname => cases optname <;> exact h
  | bind =>
      simp only [TcpServer.next]
      split
      · rfl
      · exact h
  | listen =>
      obtain ⟨-, hOpen⟩ := h
      simp only [TcpServer.next]
      split
      · rfl
      · rename_i hGoesOn
        rw [not_or, not_le] at hGoesOn
        exact ⟨hGoesOn.2, hOpen⟩
  | accept | returned code => exact hEnabled.elim
  | send => exact h
  | close =>
      obtain ⟨hFd, hClient⟩ : 0 < fd ∧ (cfd = -1 ∧ -1 ∉ openFds ∨
          cfd ∉ ({fd} : Finset Int) ∧ openFds = {cfd, fd}) := h
      by_cases hFailed : rv = -1
      · rw [next_close_failed rfl hFailed]
        rfl
      · obtain ⟨rfl, hNone⟩ | ⟨hNew, rfl⟩ := hClient
        · exact absurd (hEnabled hNone) hFailed
        · rw [next_closed rfl hFailed]
          exact ⟨hFd, Finset.erase_insert hNew⟩

theorem Sound.next {s : TcpServer} {a : TcpAnswer} (h : s.Sound) (hEnabled : s.Enabled a) :
    (s.next a).Sound := by
  cases a with
  | result rv => exact h.next_result hEnabled
  | accepted cfd addrLen ip port => exact h.next_accepted hEnabled

end TcpServer

section Serving

variable {print : Printing} {s : TcpServer} {a : TcpAnswer} {answers : List TcpAnswer}

/-- The calls of a run. -/
def calls (print : Printing) (s : TcpServer) (answers : List TcpAnswer) : List TcpCall :=
  ((tcpMain print).trace s answers).filterMap id

theorem calls_cons {call : TcpCall} (hCall : s.call print = some call) :
    calls print s (a :: answers) = call :: calls print (s.next a) answers := by
  unfold calls
  rw [Machine.trace_cons]
  exact List.filterMap_cons_some (f := id) hCall

/-- A step makes the next call of its round, or begins one. -/
theorem step_calls (print : Printing) (hServing : s.Serving) (hEnabled : s.Enabled a) :
    (s.next a).Serving ∧ (s.next a).fd = s.fd ∧ ∃ call, s.call print = some call ∧
      call :: (s.next a).remaining print =
        s.remaining print ++ (accepts [a]).flatMap (roundCalls print s.fd) := by
  obtain ⟨pc, fd, ip, port, cfd, openFds⟩ := s
  cases a with
  | accepted cfd addrLen ip port =>
      obtain rfl : pc = .accept := hEnabled.1
      by_cases hUsable : cfd ≠ -1 ∧ addrLen = sockaddrLen
      · rw [TcpServer.next_useful hUsable]
        refine ⟨trivial, rfl, _, rfl, ?_⟩
        show _ = roundCalls print fd (.accepted cfd addrLen ip port) ++ []
        rw [roundCalls, if_pos hUsable]
        rfl
      · rw [TcpServer.next_useless hUsable]
        refine ⟨trivial, rfl, _, rfl, ?_⟩
        show _ = roundCalls print fd (.accepted cfd addrLen ip port) ++ []
        rw [roundCalls, if_neg hUsable]
        rfl
  | result rv =>
      cases pc with
      | initLocal | socket | setsockopt _ | bind | listen => exact hServing.elim
      | accept | returned code => exact hEnabled.elim
      | send => exact ⟨trivial, rfl, _, rfl, rfl⟩
      | close =>
          by_cases hFailed : rv = -1
          · rw [TcpServer.next_close_failed rfl hFailed]
            exact ⟨trivial, rfl, _, rfl, rfl⟩
          · rw [TcpServer.next_closed rfl hFailed]
            exact ⟨trivial, rfl, _, rfl, rfl⟩

theorem accepts_cons (a : TcpAnswer) (answers : List TcpAnswer) :
    accepts (a :: answers) = accepts [a] ++ accepts answers :=
  List.filter_append [a] answers

/-- The calls made from a state on are those left of the round and those of the
rounds that begin, up to what is left in the end. -/
theorem calls_eq (hServing : s.Serving) (hRun : (tcpMain print).Admits s answers) :
    calls print s answers ++ ((tcpMain print).run s answers).remaining print =
      s.remaining print ++ (accepts answers).flatMap (roundCalls print s.fd) := by
  induction answers generalizing s with
  | nil => exact (List.append_nil _).symm
  | cons a answers ih =>
      rw [Machine.admits_cons] at hRun
      obtain ⟨hNext, hFd, call, hCall, hStep⟩ := step_calls print hServing hRun.1
      have hRest := ih hNext hRun.2
      rw [hFd] at hRest
      rw [calls_cons hCall, Machine.run_cons, List.cons_append, accepts_cons, List.flatMap_append,
        ← List.append_assoc, ← hStep, List.cons_append]
      exact congrArg (call :: ·) hRest

/-- What has begun to fail goes on to, and accepts no one. -/
theorem TcpServer.Failing.next (h : s.Failing) (hEnabled : s.Enabled a) :
    (s.next a).Failing ∧ accepts [a] = [] := by
  obtain ⟨pc, fd, ip, port, cfd, openFds⟩ := s
  cases a with
  | accepted cfd addrLen ip port =>
      obtain rfl : pc = .accept := hEnabled.1
      exact h.elim
  | result rv =>
      refine ⟨?_, rfl⟩
      cases pc with
      | initLocal | socket | setsockopt _ | bind | listen | accept => exact h.elim
      | returned code => exact h
      | send => exact h
      | close =>
          obtain ⟨rfl, hNone⟩ : cfd = -1 ∧ -1 ∉ openFds := h
          have hFailed : rv = -1 := hEnabled hNone
          rw [TcpServer.next_close_failed rfl hFailed]
          trivial

theorem TcpServer.Failing.accepts_eq (h : s.Failing) (hRun : (tcpMain print).Admits s answers) :
    accepts answers = [] := by
  induction answers generalizing s with
  | nil => rfl
  | cons a answers ih =>
      rw [Machine.admits_cons] at hRun
      obtain ⟨hNext, hNone⟩ := h.next hRun.1
      rw [accepts_cons, hNone, List.nil_append]
      exact ih hNext hRun.2

/-- No client is accepted after one that was of no use. -/
theorem accepts_usable (h : s.Sound) (hRun : (tcpMain print).Admits s answers) :
    ∀ client ∈ (accepts answers).dropLast, client.Usable := by
  induction answers generalizing s with
  | nil => exact fun _ hMem => absurd hMem List.not_mem_nil
  | cons a answers ih =>
      rw [Machine.admits_cons] at hRun
      have hNext : (s.next a).Sound := h.next hRun.1
      have hLater := ih hNext hRun.2
      cases a with
      | result rv => exact hLater
      | accepted cfd addrLen ip port =>
          by_cases hUsable : cfd ≠ -1 ∧ addrLen = sockaddrLen
          · intro client hMem
            cases hRest : accepts answers with
            | nil =>
                rw [accepts_cons, hRest] at hMem
                exact absurd hMem List.not_mem_nil
            | cons second others =>
                rw [accepts_cons, List.dropLast_append_of_ne_nil (hRest ▸ List.cons_ne_nil _ _),
                  List.mem_append] at hMem
                rcases hMem with hFirst | hAfter
                · obtain rfl := List.mem_singleton.mp hFirst
                  exact hUsable
                · exact hLater client hAfter
          · have hFailing : (s.next (.accepted cfd addrLen ip port)).Failing :=
              h.failing hRun.1 hUsable
            rw [accepts_cons, hFailing.accepts_eq hRun.2]
            exact fun _ hMem => absurd hMem List.not_mem_nil

/-- What a run of the loop keeps: its listener stays open. -/
structure TcpServer.Keeps (fd : Int) (s : TcpServer) : Prop where
  serving : s.Serving
  sound : s.Sound
  fd_eq : s.fd = fd
  listens : fd ∈ s.openFds

/-- A server never closes the socket it listens on. -/
theorem TcpServer.listens_next (hSound : s.Sound) (hServing : s.Serving)
    (hEnabled : s.Enabled a) (h : s.fd ∈ s.openFds) : s.fd ∈ (s.next a).openFds := by
  obtain ⟨pc, fd, ip, port, cfd, openFds⟩ := s
  cases a with
  | accepted cfd addrLen ip port =>
      by_cases hUsable : cfd ≠ -1 ∧ addrLen = sockaddrLen
      · rw [TcpServer.next_useful hUsable]
        exact Finset.mem_insert_of_mem h
      · rw [TcpServer.next_useless hUsable]
        show _ ∈ if cfd = -1 then openFds else insert cfd openFds
        split
        · exact h
        · exact Finset.mem_insert_of_mem h
  | result rv =>
      cases pc with
      | initLocal | socket | setsockopt _ | bind | listen => exact hServing.elim
      | accept | returned code => exact hEnabled.elim
      | send => exact h
      | close =>
          by_cases hFailed : rv = -1
          · rw [TcpServer.next_close_failed rfl hFailed]
            exact h
          · obtain ⟨-, ⟨rfl, hNone⟩ | ⟨hNew, -⟩⟩ := hSound
            · exact absurd (hEnabled hNone) hFailed
            · rw [TcpServer.next_closed rfl hFailed]
              exact Finset.mem_erase.mpr ⟨fun hEq => hNew (Finset.mem_singleton.mpr hEq.symm), h⟩

/-- A step keeps the listener open. -/
theorem TcpServer.Keeps.next {fd : Int} (h : s.Keeps fd) (hEnabled : s.Enabled a) :
    (s.next a).Keeps fd := by
  obtain ⟨hServing, hFd, -⟩ := step_calls ⟨fun _ => [], id⟩ h.serving hEnabled
  obtain rfl := h.fd_eq
  exact ⟨hServing, h.sound.next hEnabled, hFd,
    TcpServer.listens_next h.sound h.serving hEnabled h.listens⟩

theorem sound_start : TcpServer.Sound {} := rfl

/-- A server that is ready to accept has its listener open. -/
theorem keeps_ready {setup : List TcpAnswer} (hSetup : (tcpMain print).Admits {} setup)
    (hReady : ((tcpMain print).run {} setup).pc = .accept) :
    ((tcpMain print).run {} setup).Keeps ((tcpMain print).run {} setup).fd := by
  have hSound : ((tcpMain print).run {} setup).Sound :=
    hSetup.invariant_run (fun _ _ hEnabled h => h.next hEnabled) sound_start
  refine ⟨?_, hSound, rfl, ?_⟩
  · unfold TcpServer.Serving
    rw [hReady]
    trivial
  · unfold TcpServer.Sound at hSound
    rw [hReady] at hSound
    rw [hSound.2]
    exact Finset.mem_singleton_self _

/-- Once it listens, the server makes for each client an accept, a send with
the client's address and a close, in that order and one client after another.
Only the last client of a run can be one that is of no use. -/
theorem tcpMain_serves {setup answers : List TcpAnswer}
    (hSetup : (tcpMain print).Admits {} setup)
    (hReady : ((tcpMain print).run {} setup).pc = .accept)
    (hRun : (tcpMain print).Admits ((tcpMain print).run {} setup) answers) :
    let s := (tcpMain print).run {} setup
    calls print s answers ++ ((tcpMain print).run s answers).remaining print =
        (accepts answers).flatMap (roundCalls print s.fd) ∧
      ∀ client ∈ (accepts answers).dropLast, client.Usable := by
  intro s
  have hKeeps : s.Keeps s.fd := keeps_ready hSetup hReady
  have hNone : s.remaining print = [] := by
    unfold TcpServer.remaining
    rw [hReady]
  have hCalls := calls_eq hKeeps.serving hRun
  rw [hNone, List.nil_append] at hCalls
  exact ⟨hCalls, accepts_usable hKeeps.sound hRun⟩

/-- The calls of `init_sock` succeed with socket 1. -/
def listening : List TcpAnswer :=
  [.result 0, .result 1, .result 0, .result 0, .result 0, .result 0]

/-- One client is served, and the address of the next has the wrong length. -/
def twoClients : List TcpAnswer :=
  [.accepted 2 sockaddrLen 1 2, .result 14, .result 0, .accepted 3 0 0 0, .result (-1)]

/-- Two clients, and then a failure. -/
theorem tcpMain_serves_two :
    let print : Printing := ⟨fun _ => "10.0.0.1".toList, id⟩
    let s := (tcpMain print).run {} listening
    calls print s twoClients ++ ((tcpMain print).run s twoClients).remaining print =
        (accepts twoClients).flatMap (roundCalls print s.fd) ∧
      ∀ client ∈ (accepts twoClients).dropLast, client.Usable :=
  tcpMain_serves (by decide) rfl (by decide)

/-- The listener stays open to the end and after it. It is the only socket that
is open when a client is accepted, and the server never returns a success. -/
theorem tcpMain_openFds {setup answers : List TcpAnswer}
    (hSetup : (tcpMain print).Admits {} setup)
    (hReady : ((tcpMain print).run {} setup).pc = .accept)
    (hRun : (tcpMain print).Admits ((tcpMain print).run {} setup) answers) :
    let s := (tcpMain print).run {} setup
    (tcpMain print).Always (fun t => s.fd ∈ t.openFds ∧ (t.pc = .accept → t.openFds = {s.fd}) ∧
      ∀ code, t.pc = .returned code → code = -1) s answers := by
  intro s
  refine hRun.always (fun _ _ hEnabled h => TcpServer.Keeps.next h hEnabled)
    (keeps_ready hSetup hReady) (fun t hKeeps => ?_)
  have hSound := hKeeps.sound
  unfold TcpServer.Sound at hSound
  refine ⟨hKeeps.listens, fun hPc => ?_, fun code hPc => ?_⟩
  · rw [hPc, hKeeps.fd_eq] at hSound
    exact hSound.2
  · rw [hPc] at hSound
    exact hSound

theorem tcpMain_openFds_two :
    let print : Printing := ⟨fun _ => "10.0.0.1".toList, id⟩
    let s := (tcpMain print).run {} listening
    (tcpMain print).Always (fun t => s.fd ∈ t.openFds ∧ (t.pc = .accept → t.openFds = {s.fd}) ∧
      ∀ code, t.pc = .returned code → code = -1) s twoClients :=
  tcpMain_openFds (by decide) rfl (by decide)

end Serving

end DpdkPerf.FpSock
