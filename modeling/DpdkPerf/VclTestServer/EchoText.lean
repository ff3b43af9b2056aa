import DpdkPerf.VclTestServer.Delivery
import DpdkPerf.VclTestServer.Layout
import Mathlib.Algebra.Order.BigOperators.Group.List
import Mathlib.Algebra.Order.Group.Nat
import Mathlib.Data.List.TakeWhile

/-! The echo of a text that a client sends in any number of pieces, when the
server reads into the connection's buffer. -/
namespace DpdkPerf.VclTestServer

/-- A piece of text, all of whose echo is written. -/
structure Rx.IsText (rx : Rx) : Prop where
  ascii : rx.msg.headD 0 < 128
  noNul : 0 ∉ rx.msg
  written : rx.env.txLimit = none

/-- With the piece read, the buffer does not begin with the magic word. What a
short piece does not overwrite is still there from earlier messages. -/
def Worker.NoMagic (V : VclTestApi) (i : Nat) (w : Worker) (rx : Rx) : Prop :=
  ∀ conn ∈ w.connPool[i]?, hasMagic V (vtsConnRead false rx.env conn rx.ds) = false

/-- What a run writes, without the terminators. -/
def echoedText (trace : List (Option Handled)) : Bytes :=
  (sentData (handledCalls trace)).flatten.filter (· ≠ 0)

instance (V : VclTestApi) (i : Nat) (w : Worker) (rx : Rx) : Decidable (w.NoMagic V i rx) :=
  inferInstanceAs (Decidable (∀ conn ∈ w.connPool[i]?, _))

theorem sentData_handledCalls_cons (handled : Handled) (rest : List (Option Handled)) :
    sentData (handledCalls (some handled :: rest)) =
      sentData handled.calls ++ sentData (handledCalls rest) :=
  sentData_append ..

section Echo

variable {V : VclTestApi} {i : Nat} {w : Worker} {conn : Conn} {rx : Rx}

/-- A piece is echoed up to the place of the terminator, and changes nothing
but the counters and the contents of the buffer. -/
theorem echo_message (nfds : Int) (pool : List Conn) (hEcho : conn.cfg.test = .echo)
    (hSome : 0 < rx.msg.length) (hFits : rx.msg.length ≤ conn.bufSize.toNat) (hText : rx.IsText)
    (hMagic : hasMagic V (vtsConnRead false rx.env conn rx.ds) = false) :
    let handled := vtsHandleMessage V false rx.env pool i nfds conn rx.ds
    handled.conn.cfg = conn.cfg ∧ handled.conn.bufSize = conn.bufSize ∧
      sentData handled.calls = [rx.msg.take (conn.bufSize.toNat - 1) ++ [0]] := by
  intro handled
  have hRoute : route V false (vtsConnRead false rx.env conn rx.ds) = .serverEcho := by
    have hAscii : vtsConnHasAscii false (vtsConnRead false rx.env conn rx.ds) = true := by
      rw [hasAscii_read rx.env conn rx.ds hSome hFits]
      exact decide_eq_true hText.ascii
    have hNoMagic : hasMagic V (vtsConnReadConfig V false (vtsConnRead false rx.env conn rx.ds)) =
        false := hMagic
    rw [route, hNoMagic, cfg_read, looked_copy, hAscii]
    simp [View.count, Conn.view, hEcho]
  have hNotConfig : route V false (vtsConnRead false rx.env conn rx.ds) ≠ .handleCfg := by
    rw [hRoute]
    exact nofun
  obtain ⟨hView, -⟩ := view_of_not_handleCfg V false rx.env pool i nfds conn rx.ds hNotConfig
  refine ⟨congrArg View.cfg hView, congrArg View.bufSize hView, ?_⟩
  have hSent := sentData_vtsServerEcho rx.env (vtsConnRead false rx.env conn rx.ds) rx.ds hSome hFits
    (take_read rx.env conn rx.ds hFits)
  have hClean : (rx.msg.take (conn.bufSize.toNat - 1)).takeWhile (· ≠ 0) =
      rx.msg.take (conn.bufSize.toNat - 1) := by
    rw [List.takeWhile_eq_self_iff]
    intro byte hMem
    have hByte : byte ≠ 0 := fun hNul => hText.noNul (hNul ▸ List.mem_of_mem_take hMem)
    simpa using hByte
  have hCalls : sentData handled.calls =
      sentData (vtsServerEcho false rx.env (vtsConnRead false rx.env conn rx.ds)
        rx.ds.data.length).2 := by
    unfold handled vtsHandleMessage
    dsimp only
    rw [hRoute, looked_copy]
    rfl
  rw [hCalls, hSent, written_of_no_limit hText.written]
  show [(rx.msg.take (conn.bufSize.toNat - 1)).takeWhile (· ≠ 0) ++ [0]] = _
  rw [hClean]

/-- A run echoes of each piece what fits before the last byte of the buffer. -/
theorem echoedText_run {rxs : List Rx} (hSlot : w.connPool[i]? = some conn)
    (hEcho : conn.cfg.test = .echo) (hAdmits : (connection V false i).Admits w rxs)
    (hText : ∀ rx ∈ rxs, rx.IsText)
    (hMagic : (connection V false i).Meets (Worker.NoMagic V i) w rxs) :
    echoedText ((connection V false i).trace w rxs) =
      rxs.flatMap fun rx => rx.msg.take (conn.bufSize.toNat - 1) := by
  induction rxs generalizing w conn with
  | nil => rfl
  | cons rx rest ih =>
      rw [List.forall_mem_cons] at hText
      rw [Machine.admits_cons] at hAdmits
      rw [Machine.meets_cons] at hMagic
      obtain ⟨-, conn', hSlot', -, hNonempty, hFits⟩ := hAdmits.1
      obtain rfl := Option.some.inj (hSlot.symm.trans hSlot')
      obtain ⟨hCfg, hSize, hSent⟩ := echo_message w.nfds w.connPool hEcho
        (List.length_pos_iff.mpr hNonempty) (hFits rfl) hText.1 (hMagic.1 conn hSlot)
      have hRest := ih (connection_slot rx hSlot) (hCfg ▸ hEcho) hAdmits.2 hText.2 hMagic.2
      have hNoNul : (rx.msg.take (conn.bufSize.toNat - 1)).filter (· ≠ 0) =
          rx.msg.take (conn.bufSize.toNat - 1) := by
        rw [List.filter_eq_self]
        intro byte hMem
        have hByte : byte ≠ 0 := fun hNul => hText.1.noNul (hNul ▸ List.mem_of_mem_take hMem)
        simpa using hByte
      rw [Machine.trace_cons, connection_output rx hSlot, List.flatMap_cons, echoedText,
        sentData_handledCalls_cons, List.flatten_append, List.filter_append, hSent,
        List.flatten_singleton, List.filter_append, hNoNul]
      rw [hSize] at hRest
      exact congrArg₂ _ (List.append_nil _) hRest

/-- Cutting pieces short loses nothing if and only if all are short. -/
theorem flatMap_take_eq_iff {α β : Type*} (pieces : List α) (f : α → List β) (n : Nat) :
    (pieces.flatMap fun piece => (f piece).take n) = pieces.flatMap f ↔
      ∀ piece ∈ pieces, (f piece).length ≤ n := by
  induction pieces with
  | nil => simp
  | cons piece rest ih =>
      have hRest : (rest.flatMap fun piece => (f piece).take n).length ≤ (rest.flatMap f).length := by
        rw [List.length_flatMap, List.length_flatMap]
        exact List.sum_le_sum fun piece _ => List.length_take_le' n (f piece)
      rw [List.flatMap_cons, List.flatMap_cons, List.forall_mem_cons, ← ih]
      constructor
      · intro hEq
        have hLength := congrArg List.length hEq
        rw [List.length_append, List.length_append, List.length_take] at hLength
        have hFits : (f piece).length ≤ n := by omega
        rw [List.take_of_length_le hFits] at hEq
        exact ⟨hFits, List.append_cancel_left hEq⟩
      · rintro ⟨hFits, hEq⟩
        rw [List.take_of_length_le hFits, hEq]

/-- The echo of a text is the text exactly if none of its pieces fills the
buffer. -/
theorem echoedText_eq_iff {rxs : List Rx} (hSlot : w.connPool[i]? = some conn)
    (hEcho : conn.cfg.test = .echo) (hAdmits : (connection V false i).Admits w rxs)
    (hText : ∀ rx ∈ rxs, rx.IsText)
    (hMagic : (connection V false i).Meets (Worker.NoMagic V i) w rxs) :
    echoedText ((connection V false i).trace w rxs) = rxs.flatMap Rx.msg ↔
      ∀ rx ∈ rxs, rx.msg.length < conn.bufSize.toNat := by
  rw [echoedText_run hSlot hEcho hAdmits hText hMagic, flatMap_take_eq_iff]
  cases rxs with
  | nil => simp
  | cons first rest =>
      obtain ⟨-, conn', hSlot', -, hNonempty, hFits⟩ := ((Machine.admits_cons ..).mp hAdmits).1
      obtain rfl := Option.some.inj (hSlot.symm.trans hSlot')
      have hSize : 0 < conn.bufSize.toNat :=
        (List.length_pos_iff.mpr hNonempty).trans_le (hFits rfl)
      exact forall₂_congr fun rx _ => by omega

/-- A worker with one client, whose test is ECHO and whose buffer has four
bytes. -/
def echoWorker : Worker where
  connPool := [{ freshConn packedApi with
    isAlloc := true, fd := 5, cfg := { defaultCfg with test := .echo, rxbufSize := 4, txbufSize := 4 }
    buf := ⟨List.replicate 4 0, 4, rfl⟩ }]
  nfds := 1
  pc := .epollWait

/-- A text in two pieces that do not fill the buffer. -/
theorem echoedText_eq_iff_short :
    echoedText ((connection packedApi false 0).trace echoWorker
      [{ ds := ⟨[104, 105, 32], []⟩ }, { ds := ⟨[121], [111]⟩ }]) = [104, 105, 32, 121, 111] := by
  have hSlot : echoWorker.connPool[0]? = some (echoWorker.connPool.head (by decide)) := by decide
  refine (echoedText_eq_iff hSlot (by decide) (by decide) ?_ (by decide)).mpr (by decide)
  intro rx hMem
  simp only [List.mem_cons, List.not_mem_nil, or_false] at hMem
  rcases hMem with rfl | rfl
  · exact ⟨by decide, by decide, rfl⟩
  · exact ⟨by decide, by decide, rfl⟩

/-- Of a text that fills the buffer the last byte is lost. -/
theorem not_echoedText_eq :
    let rxs : List Rx := [{ ds := ⟨[116, 101, 120, 116], []⟩ }]
    (connection packedApi false 0).Admits echoWorker rxs ∧ (∀ rx ∈ rxs, rx.IsText) ∧
      (connection packedApi false 0).Meets (Worker.NoMagic packedApi 0) echoWorker rxs ∧
      echoedText ((connection packedApi false 0).trace echoWorker rxs) ≠ rxs.flatMap Rx.msg := by
  intro rxs
  refine ⟨by decide, fun rx hMem => ?_, by decide, by decide⟩
  obtain rfl := List.mem_singleton.mp hMem
  exact ⟨by decide, by decide, rfl⟩

end Echo

end DpdkPerf.VclTestServer
