import DpdkPerf.Machine.AccessLog
import DpdkPerf.Machine.SignedWords
import DpdkPerf.UdpEcho.Ip6Accepted

/-! What the parser of IPv6 addresses does to memory and to its input. The
counters and the indices are the machine's words here, signed where the source
has them signed, and every access to `hex_quads` and to the result has an
effect, so that nothing keeps an index in the array but the code itself. -/
namespace DpdkPerf.UdpEcho.Raw

/-- The calls of the loop, and the start of each round of its body. -/
inductive LoopEvent where
  | getInput (c : UInt64)
  | body
  | putInput
  deriving DecidableEq, Repr

def unformatEndOfInput : UInt64 := ~~~0

/-- `ARRAY_LEN (hex_quads)`. -/
def arrayLen : UInt64 := 8

/-- The local variables. `hex_quads` has no initial value. -/
structure Scan where
  hexQuads : RawArray UInt16
  hexQuad : UInt64 := 0
  nHexQuads : UInt64 := 0
  nHexDigits : UInt64 := 0
  nColon : UInt64 := 0
  doubleColonIndex : UInt64 := arrayLen

def hexDigitOf (c : UInt64) : UInt64 :=
  if '0'.val.toUInt64 ≤ c ∧ c ≤ '9'.val.toUInt64 then c - '0'.val.toUInt64
  else if 'a'.val.toUInt64 ≤ c ∧ c ≤ 'f'.val.toUInt64 then c + 10 - 'a'.val.toUInt64
  else if 'A'.val.toUInt64 ≤ c ∧ c ≤ 'F'.val.toUInt64 then c + 10 - 'A'.val.toUInt64
  else 16

/-- `for (; i >= low; i--) hex_quads[n_zero + i] = hex_quads[i]`. -/
def moveUp (nZero : Int64) (low : Int32) (i : Int64) (hexQuads : RawArray UInt16) :
    RawArray UInt16 :=
  if low.toInt64 ≤ i then
    let (quad, hexQuads) := hexQuads.read i.toInt
    moveUp nZero low (i - 1) (hexQuads.write (nZero + i).toInt quad)
  else hexQuads
termination_by (i.toInt - low.toInt + 1).toNat
decreasing_by
  have hLow := low.le_toInt
  have hHigh := i.toInt_lt
  have hLe : low.toInt ≤ i.toInt := by simpa [Int64.le_iff_toInt_le] using ‹low.toInt64 ≤ i›
  rw [toInt_sub_of_fits i 1 (by simp; omega) (by simp; omega), Int64.toInt_one]
  omega

/-- `for (; i < n_zero; i++) hex_quads[double_colon_index + i] = 0`. The sum of
an unsigned and a signed word is unsigned. -/
def fillZero (doubleColonIndex : UInt64) (nZero i : Int64) (hexQuads : RawArray UInt16) :
    RawArray UInt16 :=
  if i < nZero then
    fillZero doubleColonIndex nZero (i + 1)
      (hexQuads.write (doubleColonIndex + i.toUInt64).toNat 0)
  else hexQuads
termination_by (nZero.toInt - i.toInt).toNat
decreasing_by
  have hLow := i.le_toInt
  have hHigh := nZero.toInt_lt
  have hLt : i.toInt < nZero.toInt := Int64.lt_iff_toInt_lt.mp ‹i < nZero›
  rw [toInt_add_of_fits i 1 (by simp; omega) (by simp; omega), Int64.toInt_one]
  omega

/-- `for (; i < ARRAY_LEN (hex_quads); i++)`, where `i` is compared as an
unsigned word. -/
def copyQuads (host : ByteOrder) (i : Int64) (hexQuads result : RawArray UInt16) :
    RawArray UInt16 × RawArray UInt16 :=
  if i.toUInt64 < arrayLen then
    let (quad, hexQuads) := hexQuads.read i.toInt
    copyQuads host (i + 1) hexQuads (result.write i.toInt (clibHostToNetU16 quad host))
  else (hexQuads, result)
termination_by arrayLen.toNat - i.toUInt64.toNat
decreasing_by
  have hLt : i.toUInt64.toNat < 8 := UInt64.lt_iff_toNat_lt.mp ‹i.toUInt64 < arrayLen›
  have hNext : (i + 1).toUInt64.toNat = i.toUInt64.toNat + 1 := by
    rw [Int64.toUInt64_add]
    exact toNat_add_of_fits i.toUInt64 1 (show i.toUInt64.toNat + 1 < 2 ^ 64 by omega)
  show 8 - (i + 1).toUInt64.toNat < 8 - i.toUInt64.toNat
  omega

namespace Scan

def classify (s : Scan) (c : UInt64) : Option Scan :=
  if hexDigitOf c < 16 then some s
  else if c = ':'.val.toUInt64 ∧ s.nColon < 2 then some { s with nColon := s.nColon + 1 }
  else none

/-- `none` is a group of more than four digits. What `hex_quad` is then is not
looked at again. -/
def takeDigit (s : Scan) (hexDigit : UInt64) : Option Scan :=
  if hexDigit < 16 then
    if 4 ≤ s.nHexDigits then none
    else some
      { s with
        hexQuad := (s.hexQuad <<< 4) ||| hexDigit
        nColon := 0
        nHexDigits := s.nHexDigits + 1 }
  else some s

def markDoubleColon (s : Scan) : Option Scan :=
  if s.nColon = 2 then
    if s.doubleColonIndex < arrayLen then none
    else some { s with doubleColonIndex := s.nHexQuads }
  else some s

/-- `hex_quads[n_hex_quads++] = hex_quad`. -/
def storeQuad (s : Scan) : Scan :=
  { s with
    hexQuads := s.hexQuads.write s.nHexQuads.toNat s.hexQuad.toUInt16
    nHexQuads := s.nHexQuads + 1 }

def storeEnded (s : Scan) : Scan :=
  if 0 < s.nColon ∧ 0 < s.nHexDigits then { s.storeQuad with hexQuad := 0, nHexDigits := 0 }
  else s

def storeLast (s : Scan) : Scan := if 0 < s.nHexDigits then s.storeQuad else s

/-- "Expand :: to appropriate number of zero hex quads." -/
def expand (s : Scan) : Scan :=
  if s.doubleColonIndex < arrayLen then
    let nZero := (arrayLen - s.nHexQuads).toInt64
    let hexQuads := moveUp nZero s.doubleColonIndex.toUInt32.toInt32
      (s.nHexQuads - 1).toInt64 s.hexQuads
    let hexQuads := fillZero s.doubleColonIndex nZero 0 hexQuads
    { s with hexQuads := hexQuads, nHexQuads := arrayLen }
  else s

end Scan

inductive Round where
  | putBack
  | returnZero (s : Scan)
  | next (s : Scan)

def scanRound (s : Scan) (c : UInt64) : Round :=
  match s.classify c with
  | none => .putBack
  | some s =>
      if arrayLen ≤ s.nHexQuads then .returnZero s
      else
        match s.takeDigit (hexDigitOf c) with
        | none => .returnZero s
        | some s =>
            match s.markDoubleColon with
            | none => .returnZero s
            | some s => .next s.storeEnded

/-- How the loop ends, and its events. -/
inductive ScanEnd where
  | done (s : Scan) (input : UnformatInput) (events : List LoopEvent)
  | returnZero (s : Scan) (input : UnformatInput) (events : List LoopEvent)

def scanLoop (s : Scan) (taken : List UInt8) (events : List LoopEvent) :
    (rest : List UInt8) → ScanEnd
  | [] => .done s ⟨taken, []⟩ (events ++ [.getInput unformatEndOfInput])
  | c :: rest =>
      let events := events ++ [.getInput c.toUInt64, .body]
      match scanRound s c.toUInt64 with
      | .putBack =>
          .done s (UnformatInput.unformatPutInput ⟨c :: taken, rest⟩) (events ++ [.putInput])
      | .returnZero s => .returnZero s ⟨c :: taken, rest⟩ events
      | .next s => scanLoop s (c :: taken) events rest

structure Outcome where
  ret : Bool
  input : UnformatInput
  events : List LoopEvent
  hexQuads : RawArray UInt16
  result : RawArray UInt16

/-- `garbage` is what `hex_quads` holds at the start, `result` what the result
holds. -/
def unformatIp6Address (host : ByteOrder) (garbage : Int → UInt16) (input : UnformatInput)
    (result : Int → UInt16) : Outcome :=
  match scanLoop { hexQuads := ⟨garbage, []⟩ } input.taken [] input.rest with
  | .returnZero s input events => ⟨false, input, events, s.hexQuads, ⟨result, []⟩⟩
  | .done s input events =>
      let s := s.storeLast.expand
      if s.nHexQuads < arrayLen then ⟨false, input, events, s.hexQuads, ⟨result, []⟩⟩
      else
        let (hexQuads, result) := copyQuads host 0 s.hexQuads ⟨result, []⟩
        ⟨true, input, events, hexQuads, result⟩

/-- Both models know the same digits. -/
theorem toNat_hexDigitOf (c : UInt8) :
    (hexDigitOf c.toUInt64).toNat = UdpEcho.hexDigitOf c := by
  have hByte := c.toNat_lt
  have hWords : ∀ first last : UInt64, (first ≤ c.toUInt64 ∧ c.toUInt64 ≤ last ↔
      first.toNat ≤ c.toNat ∧ c.toNat ≤ last.toNat) := by
    intro first last
    simp [UInt64.le_iff_toNat_le]
  have hBytes : ∀ first last : UInt8, (first ≤ c ∧ c ≤ last ↔
      first.toNat ≤ c.toNat ∧ c.toNat ≤ last.toNat) := by
    intro first last
    simp [UInt8.le_iff_toNat_le]
  have hLetter : ∀ first : UInt64, first.toNat ≤ c.toNat →
      (c.toUInt64 + 10 - first).toNat = c.toNat + 10 - first.toNat := by
    intro first hFirst
    have hTen : (c.toUInt64 + 10).toNat = c.toNat + 10 :=
      toNat_add_of_fits c.toUInt64 10 (show c.toNat + 10 < 2 ^ 64 by omega)
    rw [UInt64.toNat_sub_of_le _ _ (UInt64.le_iff_toNat_le.mpr (by omega)), hTen]
  simp only [hexDigitOf, UdpEcho.hexDigitOf, hWords, hBytes]
  show UInt64.toNat (if 48 ≤ c.toNat ∧ c.toNat ≤ 57 then _
    else if 97 ≤ c.toNat ∧ c.toNat ≤ 102 then _
    else if 65 ≤ c.toNat ∧ c.toNat ≤ 70 then _ else _) =
    (if 48 ≤ c.toNat ∧ c.toNat ≤ 57 then _
    else if 97 ≤ c.toNat ∧ c.toNat ≤ 102 then _
    else if 65 ≤ c.toNat ∧ c.toNat ≤ 70 then _ else _)
  split_ifs with hDigit hLower hUpper
  · exact UInt64.toNat_sub_of_le _ _ (UInt64.le_iff_toNat_le.mpr hDigit.1)
  · exact hLetter 'a'.val.toUInt64 hLower.1
  · exact hLetter 'A'.val.toUInt64 hUpper.1
  · rfl

theorem hexDigitOf_lt_iff (c : UInt8) :
    hexDigitOf c.toUInt64 < 16 ↔ UdpEcho.hexDigitOf c < 16 :=
  lt_iff_of_toNat (toNat_hexDigitOf c) 16

theorem toNat_add_one_of_lt (x : UInt64) (h : x.toNat < 8) : (x + 1).toNat = x.toNat + 1 :=
  toNat_add_of_fits x 1 (show x.toNat + 1 < 2 ^ 64 by omega)

/-- The words are the numbers of the model, and the array holds its cells. -/
structure Groups (l : Scan) (s : UdpEcho.Scan) : Prop where
  hexQuads : l.hexQuads.Holds s.hexQuads
  nHexQuads : l.nHexQuads.toNat = s.nHexQuads
  room : s.nHexQuads ≤ 8
  doubleColonIndex : l.doubleColonIndex.toNat = s.doubleColonIndex

structure Refines (l : Scan) (s : UdpEcho.Scan) : Prop extends Groups l s where
  hexQuad : l.hexQuad = s.hexQuad
  nHexDigits : l.nHexDigits.toNat = s.nHexDigits
  nColon : l.nColon.toNat = s.nColon

/-- The signed counter ends at -1 when nothing is in front of the "::". -/
theorem moveUp_holds {a : RawArray UInt16} {m m' : Cells 8 UInt16} {gap lowest top : Nat}
    {nZero i : Int64} {low : Int32} (hZero : nZero.toInt = gap) (hLow : low.toInt = lowest)
    (hi : i.toInt = top - 1) (hFits : gap + top ≤ 8) (h : a.Holds m)
    (hMove : m.moveUp gap lowest top = some m') : (moveUp nZero low i a).Holds m' := by
  induction top generalizing i a m with
  | zero =>
      have hEnd : ¬ low.toInt64 ≤ i := by
        rw [Int64.le_iff_toInt_le, Int32.toInt_toInt64]
        omega
      rw [moveUp, if_neg hEnd]
      rwa [← Option.some.inj hMove]
  | succ top ih =>
      have hMore : low.toInt64 ≤ i ↔ lowest ≤ top := by
        rw [Int64.le_iff_toInt_le, Int32.toInt_toInt64]
        omega
      rw [moveUp]
      unfold Cells.moveUp at hMove
      by_cases hLe : lowest ≤ top
      · rw [if_pos hLe] at hMove
        obtain ⟨quad, hRead, hRest⟩ := Option.bind_eq_some_iff.mp hMove
        obtain ⟨m₁, hWrite, hRest⟩ := Option.bind_eq_some_iff.mp hRest
        have hFrom : i.toInt = (top : Nat) := by omega
        have hTo : (nZero + i).toInt = (gap + top : Nat) := by
          rw [toInt_add_of_fits nZero i (by omega) (by omega)]
          omega
        have hDown : (i - 1).toInt = top - 1 := by
          rw [toInt_sub_of_fits i 1 (by simp; omega) (by simp; omega), hFrom, Int64.toInt_one]
        rw [if_pos (hMore.mpr hLe), hFrom, hTo]
        have hWritten := (h.snd_read hRead).write hWrite
        rw [← h.fst_read hRead] at hWritten
        exact ih hDown (by omega) hWritten hRest
      · rw [if_neg hLe] at hMove
        rw [if_neg fun hNot => hLe (hMore.mp hNot)]
        rwa [← Option.some.inj hMove]

/-- The loop that writes zeros writes those of the other model, entry by entry.
-/
theorem fillZero_holds {a : RawArray UInt16} {m m' : Cells 8 UInt16} (done n : Nat)
    {doubleColonIndex : UInt64} {nZero i : Int64} (hZero : nZero.toInt = (done + n : Nat))
    (hi : i.toInt = done) (hFits : doubleColonIndex.toNat + done + n ≤ 16) (h : a.Holds m)
    (hFill : m.fill 0 (doubleColonIndex.toNat + done) n = some m') :
    (fillZero doubleColonIndex nZero i a).Holds m' := by
  induction n generalizing done i a m with
  | zero =>
      have hEnd : ¬ i < nZero := by
        rw [Int64.lt_iff_toInt_lt]
        omega
      rw [fillZero, if_neg hEnd]
      rwa [← Option.some.inj hFill]
  | succ n ih =>
      have hMore : i < nZero := by
        rw [Int64.lt_iff_toInt_lt]
        omega
      have hTo : (doubleColonIndex + i.toUInt64).toNat = doubleColonIndex.toNat + done := by
        have hCount := toNat_toUInt64_of_toInt hi
        rw [toNat_add_of_fits _ _ (by omega), hCount]
      have hUp := toInt_add_one hi (by omega)
      obtain ⟨m₁, hWrite, hRest⟩ := Option.bind_eq_some_iff.mp hFill
      rw [fillZero, if_pos hMore, hTo]
      exact ih (done + 1) (by omega) hUp (by omega) (h.write hWrite) hRest

theorem toUInt64_lt_arrayLen {i : Int64} {n : Nat} (hi : i.toInt = n) :
    i.toUInt64 < arrayLen ↔ n < 8 :=
  lt_iff_of_toNat (toNat_toUInt64_of_toInt hi) arrayLen

/-- All entries are read and as many written, in their order. -/
theorem copyQuads_spec (host : ByteOrder) {hexQuads : RawArray UInt16}
    (result : RawArray UInt16) {m : Cells 8 UInt16} {quad : Nat → UInt16} {done n : Nat}
    {i : Int64} (hRead : ∀ j < 8, m.read j = some (quad j)) (hi : i.toInt = done)
    (hEnd : done + n = 8) (h : hexQuads.Holds m) :
    (copyQuads host i hexQuads result).1.Holds m ∧
      (copyQuads host i hexQuads result).1.accesses =
        hexQuads.accesses ++ (List.range' done n).map (fun j : Nat => .read j) ∧
      (copyQuads host i hexQuads result).2.accesses =
        result.accesses ++ (List.range' done n).map (fun j : Nat => .write j) ∧
      ∀ j < 8, (copyQuads host i hexQuads result).2.value (j : Nat) =
        if done ≤ j then clibHostToNetU16 (quad j) host else result.value j := by
  induction n generalizing done i hexQuads result with
  | zero =>
      have hStop : ¬ i.toUInt64 < arrayLen := mt (toUInt64_lt_arrayLen hi).mp (by omega)
      rw [copyQuads, if_neg hStop]
      exact ⟨h, (List.append_nil _).symm, (List.append_nil _).symm,
        fun j hj => (if_neg (by omega)).symm⟩
  | succ n ih =>
      have hMore : i.toUInt64 < arrayLen := (toUInt64_lt_arrayLen hi).mpr (by omega)
      have hUp := toInt_add_one hi (by omega)
      have hQuad := hRead done (by omega)
      rw [copyQuads, if_pos hMore, hi]
      obtain ⟨hHolds, hReads, hWrites, hValues⟩ := ih
        (result.write done (clibHostToNetU16 (hexQuads.read done).1 host)) hUp (by omega)
        (h.snd_read hQuad)
      refine ⟨hHolds, ?_, ?_, ?_⟩
      · rw [hReads, List.range'_succ, List.map_cons]
        simp [RawArray.read]
      · rw [hWrites, List.range'_succ, List.map_cons]
        simp [RawArray.write]
      · intro j hj
        rw [hValues j hj, h.fst_read hQuad]
        by_cases hHere : j = done
        · subst hHere
          simp [RawArray.write]
        · have hSplit : done + 1 ≤ j ↔ done ≤ j := by omega
          simp only [hSplit]
          split_ifs
          · rfl
          · show Function.update result.value done _ (j : Int) = _
            rw [Function.update_of_ne (by omega)]

/-- The two loops that expand a double colon agree with the other model. -/
theorem Groups.expand {l : Scan} {s s' : UdpEcho.Scan} (h : Groups l s)
    (hExpand : s.expand = some s') : Groups l.expand s' := by
  have hMarked : l.doubleColonIndex < arrayLen ↔ s.doubleColonIndex < 8 :=
    lt_iff_of_toNat h.doubleColonIndex arrayLen
  unfold UdpEcho.Scan.expand at hExpand
  simp only [Scan.expand, hMarked]
  split_ifs at hExpand ⊢ with hDouble
  · obtain ⟨moved, hMove, hRest⟩ := Option.bind_eq_some_iff.mp hExpand
    obtain ⟨filled, hFill, hExpanded⟩ := Option.bind_eq_some_iff.mp hRest
    obtain rfl := Option.some.inj hExpanded
    have hRoom := h.room
    have hCount := h.nHexQuads
    have hIndex := h.doubleColonIndex
    have hZero : (arrayLen - l.nHexQuads).toInt64.toInt = (8 - s.nHexQuads : Nat) := by
      have hLe : l.nHexQuads ≤ arrayLen := UInt64.le_iff_toNat_le.mpr (by
        show l.nHexQuads.toNat ≤ 8
        omega)
      have hSub := UInt64.toNat_sub_of_le _ _ hLe
      rw [h.nHexQuads] at hSub
      have hLen : arrayLen.toNat = 8 := rfl
      rw [toInt_toInt64_of_fits _ (by omega), hSub, hLen]
    have hLow := toInt_toInt32_of_fits l.doubleColonIndex (by omega)
    have hTop := toInt_toInt64_sub_one l.nHexQuads (by omega)
    rw [hIndex] at hLow
    rw [hCount] at hTop
    have hMoved := moveUp_holds hZero hLow hTop (by omega) h.hexQuads hMove
    rw [← hIndex] at hFill
    rw [← Nat.zero_add (8 - s.nHexQuads)] at hZero
    have hFilled := fillZero_holds 0 (8 - s.nHexQuads) hZero Int64.toInt_zero (by omega)
      hMoved hFill
    exact { hexQuads := hFilled, nHexQuads := rfl, room := Nat.le_refl 8,
            doubleColonIndex := h.doubleColonIndex }
  · rwa [← Option.some.inj hExpand]

namespace Refines

variable {l : Scan} {s s' : UdpEcho.Scan}

/-- The scan starts alike, with anything at all in the array. -/
theorem start (garbage : Int → UInt16) : Refines { hexQuads := ⟨garbage, []⟩ } {} where
  hexQuads := RawArray.holds_ofList_nil garbage
  nHexQuads := rfl
  room := Nat.zero_le 8
  doubleColonIndex := rfl
  hexQuad := rfl
  nHexDigits := rfl
  nColon := rfl

/-- A character is classified alike. -/
theorem classify (h : Refines l s) (c : UInt8) :
    Option.Rel Refines (l.classify c.toUInt64) (s.classify c) := by
  have hColon : c.toUInt64 = ':'.val.toUInt64 ↔ c = colon := by
    rw [← UInt64.toNat_inj, ← UInt8.toNat_inj, UInt8.toNat_toUInt64]
    rfl
  have hCount : l.nColon < 2 ↔ s.nColon < 2 := lt_iff_of_toNat h.nColon 2
  simp only [Scan.classify, UdpEcho.Scan.classify, hexDigitOf_lt_iff, hColon, hCount]
  split_ifs with hIsDigit hIsColon
  · exact .some h
  · have hFew := hIsColon.2
    have hNext := toNat_add_one_of_lt l.nColon (show l.nColon.toNat < 8 by rw [h.nColon]; omega)
    rw [h.nColon] at hNext
    exact .some { h with nColon := hNext }
  · exact .none

/-- A digit is taken, or refused, alike. -/
theorem takeDigit (h : Refines l s) (c : UInt8) :
    Option.Rel Refines (l.takeDigit (hexDigitOf c.toUInt64))
      (s.takeDigit (UdpEcho.hexDigitOf c)) := by
  have hMany : 4 ≤ l.nHexDigits ↔ 4 ≤ s.nHexDigits := le_iff_of_toNat h.nHexDigits 4
  simp only [Scan.takeDigit, UdpEcho.Scan.takeDigit, hexDigitOf_lt_iff, hMany]
  split_ifs with hIsDigit hFull
  · exact .none
  · have hNext := toNat_add_one_of_lt l.nHexDigits (by rw [h.nHexDigits]; omega)
    rw [h.nHexDigits] at hNext
    have hQuad : (l.hexQuad <<< 4) ||| hexDigitOf c.toUInt64 =
        (s.hexQuad <<< 4) ||| UInt64.ofNat (UdpEcho.hexDigitOf c) := by
      rw [h.hexQuad, ← toNat_hexDigitOf, UInt64.ofNat_toNat]
    exact .some { h with hexQuad := hQuad, nHexDigits := hNext, nColon := rfl }
  · exact .some h

theorem markDoubleColon (h : Refines l s) :
    Option.Rel Refines l.markDoubleColon s.markDoubleColon := by
  have hTwo : l.nColon = 2 ↔ s.nColon = 2 := by
    rw [← UInt64.toNat_inj, h.nColon]
    rfl
  have hMarked : l.doubleColonIndex < arrayLen ↔ s.doubleColonIndex < 8 :=
    lt_iff_of_toNat h.doubleColonIndex arrayLen
  simp only [Scan.markDoubleColon, UdpEcho.Scan.markDoubleColon, hTwo, hMarked]
  split_ifs
  · exact .none
  · exact .some { h with doubleColonIndex := h.nHexQuads }
  · exact .some h

/-- The store is inside the array because the model has a result for it. -/
theorem storeQuad (h : Refines l s) (hStore : s.storeQuad = some s') :
    Refines { l.storeQuad with hexQuad := 0, nHexDigits := 0 } s' := by
  obtain ⟨hexQuads, hWrite, hStored⟩ := Option.bind_eq_some_iff.mp hStore
  obtain rfl := Option.some.inj hStored
  have hRoom := Cells.lt_of_write hWrite
  have hNext := toNat_add_one_of_lt l.nHexQuads (by rw [h.nHexQuads]; exact hRoom)
  rw [← h.nHexQuads] at hWrite
  rw [h.nHexQuads] at hNext
  rw [← h.hexQuad] at hWrite
  exact
    { hexQuads := h.hexQuads.write hWrite
      nHexQuads := hNext
      room := hRoom
      doubleColonIndex := h.doubleColonIndex
      hexQuad := rfl
      nHexDigits := rfl
      nColon := h.nColon }

theorem pos_nHexDigits (h : Refines l s) : 0 < l.nHexDigits ↔ 0 < s.nHexDigits :=
  pos_iff_of_toNat h.nHexDigits

/-- A group that a colon ends is stored alike. -/
theorem storeEnded (h : Refines l s) (hStore : s.storeEnded = some s') :
    Refines l.storeEnded s' := by
  have hColon : 0 < l.nColon ↔ 0 < s.nColon := pos_iff_of_toNat h.nColon
  unfold UdpEcho.Scan.storeEnded at hStore
  simp only [Scan.storeEnded, hColon, h.pos_nHexDigits]
  split_ifs at hStore ⊢ with hEnded
  · exact h.storeQuad hStore
  · rwa [← Option.some.inj hStore]

theorem storeLast (h : Refines l s) (hStore : s.storeLast = some s') :
    Groups l.storeLast s' := by
  unfold UdpEcho.Scan.storeLast at hStore
  simp only [Scan.storeLast, h.pos_nHexDigits]
  split_ifs at hStore ⊢ with hLast
  · have hQuad := h.storeQuad hStore
    exact { hexQuads := hQuad.hexQuads, nHexQuads := hQuad.nHexQuads, room := hQuad.room,
            doubleColonIndex := hQuad.doubleColonIndex }
  · rw [← Option.some.inj hStore]
    exact h.toGroups

end Refines

/-- A round that returns 0 has only kept the accesses in order. -/
inductive RoundRefines : Round → UdpEcho.Round → Prop where
  | putBack : RoundRefines .putBack .putBack
  | returnZero {l : Scan} (h : Disciplined 8 l.hexQuads.accesses) :
      RoundRefines (.returnZero l) .returnZero
  | next {l : Scan} {s : UdpEcho.Scan} (h : Refines l s) : RoundRefines (.next l) (.next s)

/-- A round of the loop ends in the same way in both models. -/
theorem scanRound_refines {l : Scan} {s : UdpEcho.Scan} {c : UInt8} {r : UdpEcho.Round}
    (h : Refines l s) (hRound : UdpEcho.scanRound s c = some r) :
    RoundRefines (scanRound l c.toUInt64) r := by
  unfold UdpEcho.scanRound at hRound
  unfold scanRound
  have hClass := h.classify c
  generalize l.classify c.toUInt64 = kept, s.classify c = kept' at hClass hRound ⊢
  cases hClass with
  | none =>
      obtain rfl := Option.some.inj hRound
      exact .putBack
  | @some l s h =>
      have hFull : arrayLen ≤ l.nHexQuads ↔ 8 ≤ s.nHexQuads :=
        le_iff_of_toNat h.nHexQuads arrayLen
      simp only [hFull] at hRound ⊢
      split_ifs at hRound ⊢
      · obtain rfl := Option.some.inj hRound
        exact .returnZero h.hexQuads.disciplined
      · have hTake := h.takeDigit c
        generalize l.takeDigit (hexDigitOf c.toUInt64) = taken,
          s.takeDigit (UdpEcho.hexDigitOf c) = taken' at hTake hRound ⊢
        cases hTake with
        | none =>
            obtain rfl := Option.some.inj hRound
            exact .returnZero h.hexQuads.disciplined
        | @some l s h =>
            dsimp only at hRound ⊢
            have hMark := h.markDoubleColon
            generalize l.markDoubleColon = marked, s.markDoubleColon = marked' at hMark hRound ⊢
            cases hMark with
            | none =>
                obtain rfl := Option.some.inj hRound
                exact .returnZero h.hexQuads.disciplined
            | some h =>
                obtain ⟨s', hStore, rfl⟩ := Option.map_eq_some_iff.mp hRound
                exact .next (h.storeEnded hStore)

inductive EndRefines : ScanEnd → UdpEcho.ScanEnd → Prop where
  | done {l : Scan} {s : UdpEcho.Scan} (h : Refines l s) (input : UnformatInput)
      (events : List LoopEvent) : EndRefines (.done l input events) (.done s input)
  | returnZero {l : Scan} (h : Disciplined 8 l.hexQuads.accesses) (input : UnformatInput)
      (events : List LoopEvent) : EndRefines (.returnZero l input events) (.returnZero input)

theorem scanLoop_refines {l : Scan} {s : UdpEcho.Scan} {taken rest : List UInt8}
    {e : UdpEcho.ScanEnd} (events : List LoopEvent) (h : Refines l s)
    (hLoop : UdpEcho.scanLoop s taken rest = some e) :
    EndRefines (scanLoop l taken events rest) e := by
  induction rest generalizing l s taken events with
  | nil =>
      obtain rfl := Option.some.inj hLoop
      exact .done h _ _
  | cons c rest ih =>
      obtain ⟨r, hRound, hRest⟩ := Option.bind_eq_some_iff.mp hLoop
      have hRefines := scanRound_refines h hRound
      unfold scanLoop
      generalize scanRound l c.toUInt64 = round at hRefines ⊢
      cases hRefines with
      | putBack =>
          obtain rfl := Option.some.inj hRest
          exact .done h _ _
      | returnZero hKept =>
          obtain rfl := Option.some.inj hRest
          exact .returnZero hKept _ _
      | next hNext => exact ih _ hNext hRest

/-- A character for each round of the body, and none of them comes again but
the one that ended the loop. -/
def TakesInput (input : UnformatInput) (events : List LoopEvent) (left : UnformatInput) : Prop :=
  ∃ (consumed : List UInt8) (last : List LoopEvent),
    input.rest = consumed ++ left.rest ∧ left.taken = consumed.reverse ++ input.taken ∧
    events = consumed.flatMap (fun c => [.getInput c.toUInt64, .body]) ++ last ∧
    (last = [] ∨ last = [.getInput unformatEndOfInput] ∧ left.rest = [] ∨
      ∃ c, last = [.getInput c.toUInt64, .body, .putInput] ∧ left.rest.head? = some c)

namespace ScanEnd

def input : ScanEnd → UnformatInput
  | done _ input _ => input
  | returnZero _ input _ => input

def events : ScanEnd → List LoopEvent
  | done _ _ events => events
  | returnZero _ _ events => events

end ScanEnd

/-- The loop takes characters off the input in order, and puts at most the last
one back. -/
theorem scanLoop_takesInput (l : Scan) (taken rest : List UInt8) (before : List LoopEvent) :
    ∃ events, (scanLoop l taken before rest).events = before ++ events ∧
      TakesInput ⟨taken, rest⟩ events (scanLoop l taken before rest).input := by
  induction rest generalizing l taken before with
  | nil =>
      exact ⟨[.getInput unformatEndOfInput], rfl, [], _, rfl, rfl, rfl,
        .inr (.inl ⟨rfl, rfl⟩)⟩
  | cons c rest ih =>
      unfold scanLoop
      rcases scanRound l c.toUInt64 with _ | l' | l'
      · exact ⟨[.getInput c.toUInt64, .body, .putInput], List.append_assoc _ _ _, [], _, rfl,
          rfl, rfl, .inr (.inr ⟨c, rfl, rfl⟩)⟩
      · exact ⟨[.getInput c.toUInt64, .body], rfl, [c], [], rfl, rfl, rfl, .inl rfl⟩
      · obtain ⟨events, hEvents, consumed, last, hRest, hTaken, hAll, hLast⟩ :=
          ih l' (c :: taken) (before ++ [.getInput c.toUInt64, .body])
        refine ⟨[.getInput c.toUInt64, .body] ++ events, ?_, c :: consumed, last, ?_, ?_, ?_,
          hLast⟩
        · rw [← List.append_assoc]
          exact hEvents
        · exact congrArg (c :: ·) hRest
        · rw [List.reverse_cons, List.append_assoc]
          exact hTaken
        · rw [hAll, List.flatMap_cons, List.append_assoc]

/-- A copy that is defined has read every entry it was to read. -/
theorem isSome_read_of_foldlM {host : ByteOrder} {m : Cells 8 UInt16} {is : List (Fin 8)}
    {result address : Ip6Address} (hCopy : is.foldlM (fun result (i : Fin 8) => do
        let quad ← m.read i.val
        some (result.store i (clibHostToNetU16 quad host))) result = some address) :
    ∀ i ∈ is, (m.read i.val).isSome := by
  induction is generalizing result with
  | nil => simp
  | cons i is ih =>
      rw [List.foldlM_cons] at hCopy
      obtain ⟨stored, hStore, hRest⟩ := Option.bind_eq_some_iff.mp hCopy
      obtain ⟨quad, hRead, -⟩ := Option.bind_eq_some_iff.mp hStore
      rintro j hMem
      rcases List.mem_cons.mp hMem with rfl | hMem
      · exact Option.isSome_of_eq_some hRead
      · exact ih hRest j hMem

/-- The entries of the array are read one after another, each of them written
before the first is read, and those of the result written in the same order. -/
def CopiesWritten (hexQuads result : List Access) : Prop :=
  result = (List.range 8).map (fun i : Nat => .write i) ∧
  ∃ earlier, hexQuads = earlier ++ (List.range 8).map (fun i : Nat => .read i) ∧
    ∀ i < 8, .write ((i : Nat) : Int) ∈ earlier

/-- The address is copied alike. -/
theorem copyQuads_refines (host : ByteOrder) {hexQuads : RawArray UInt16} (result : Int → UInt16)
    {m : Cells 8 UInt16} {address : Ip6Address} (h : hexQuads.Holds m)
    (hCopy : UdpEcho.copyQuads host m ⟨fun i => result i.val⟩ = some address) :
    let copied := copyQuads host 0 hexQuads ⟨result, []⟩
    Disciplined 8 copied.1.accesses ∧ CopiesWritten copied.1.accesses copied.2.accesses ∧
      ∀ i : Fin 8, copied.2.value i.val = address.asU16 i := by
  have hRead : ∀ j < 8, m.read j = some ((m.read j).getD 0) := by
    intro j hj
    obtain ⟨quad, hQuad⟩ := Option.isSome_iff_exists.mp
      (isSome_read_of_foldlM hCopy ⟨j, hj⟩ (List.mem_finRange _))
    rw [hQuad, Option.getD_some]
  obtain ⟨hHolds, hReads, hWrites, hValues⟩ :=
    copyQuads_spec host ⟨result, []⟩ hRead Int64.toInt_zero (Nat.zero_add 8) h
  obtain ⟨address', hCopy', hStored, -⟩ := foldlM_store host m (fun i => (m.read i.val).getD 0)
    (fun i => hRead i.val i.isLt) (List.finRange 8) ⟨fun i => result i.val⟩
  obtain rfl : address = address' := Option.some.inj (hCopy.symm.trans hCopy')
  refine ⟨hHolds.disciplined, ⟨hWrites, _, hReads, ?_⟩, ?_⟩
  · intro i hi
    exact (h.written i _ (hRead i hi)).2
  · intro i
    rw [hStored i (List.mem_finRange i)]
    exact hValues i.val i.isLt

/-- The outcome without its accesses is that of the model, and the accesses
are in order. -/
structure OutcomeRefines (result : Int → UInt16) (out : Outcome)
    (model : Unformatted Ip6Address) : Prop where
  ret : out.ret = model.ret
  input : out.input = model.input
  value : ∀ i : Fin 8, out.result.value i.val = model.result.asU16 i
  disciplined : Disciplined 8 out.hexQuads.accesses
  untouched : out.ret = false → out.result = ⟨result, []⟩
  copied : out.ret = true → CopiesWritten out.hexQuads.accesses out.result.accesses

/-- The function with its arrays and words does what the other model says. -/
theorem unformatIp6Address_refines (host : ByteOrder) (garbage : Int → UInt16)
    (input : UnformatInput) (result : Int → UInt16) :
    ∃ model, UdpEcho.unformatIp6Address host input ⟨fun i => result i.val⟩ = some model ∧
      OutcomeRefines result (unformatIp6Address host garbage input result) model := by
  obtain ⟨model, hModel, -⟩ := unformatIp6Address_spec host input ⟨fun i => result i.val⟩
  refine ⟨model, hModel, ?_⟩
  obtain ⟨e, hLoop, hRest⟩ := Option.bind_eq_some_iff.mp hModel
  have hEnd := scanLoop_refines [] (Refines.start garbage) hLoop
  unfold unformatIp6Address
  generalize scanLoop { hexQuads := ⟨garbage, []⟩ } input.taken [] input.rest = e' at hEnd ⊢
  cases hEnd with
  | returnZero hKept =>
      obtain rfl := Option.some.inj hRest
      exact
        { ret := rfl, input := rfl, value := fun _ => rfl, disciplined := hKept
          untouched := fun _ => rfl, copied := fun h => absurd h Bool.false_ne_true }
  | @done l s hScan input events =>
      obtain ⟨stored, hStore, hRest⟩ := Option.bind_eq_some_iff.mp hRest
      obtain ⟨expanded, hExpand, hRest⟩ := Option.bind_eq_some_iff.mp hRest
      have hGroups := (hScan.storeLast hStore).expand hExpand
      have hFew : l.storeLast.expand.nHexQuads < arrayLen ↔ expanded.nHexQuads < 8 :=
        lt_iff_of_toNat hGroups.nHexQuads arrayLen
      simp only [hFew]
      split_ifs at hRest ⊢ with hTooFew
      · obtain rfl := Option.some.inj hRest
        exact
          { ret := rfl, input := rfl, value := fun _ => rfl
            disciplined := hGroups.hexQuads.disciplined
            untouched := fun _ => rfl, copied := fun h => absurd h Bool.false_ne_true }
      · obtain ⟨address, hCopy, hOut⟩ := Option.bind_eq_some_iff.mp hRest
        obtain rfl := Option.some.inj hOut
        obtain ⟨hKept, hCopies, hValues⟩ := copyQuads_refines host result hGroups.hexQuads hCopy
        exact
          { ret := rfl, input := rfl, value := hValues, disciplined := hKept
            untouched := fun h => absurd h Bool.noConfusion, copied := fun _ => hCopies }

theorem unformatIp6Address_takesInput (host : ByteOrder) (garbage : Int → UInt16)
    (input : UnformatInput) (result : Int → UInt16) :
    TakesInput input (unformatIp6Address host garbage input result).events
      (unformatIp6Address host garbage input result).input := by
  obtain ⟨events, hEvents, hTakes⟩ :=
    scanLoop_takesInput { hexQuads := ⟨garbage, []⟩ } input.taken input.rest []
  unfold unformatIp6Address
  generalize scanLoop { hexQuads := ⟨garbage, []⟩ } input.taken [] input.rest = e
    at hEvents hTakes ⊢
  obtain rfl : e.events = events := hEvents
  cases e with
  | returnZero l left events => exact hTakes
  | done l left events =>
      dsimp only
      split_ifs
      · exact hTakes
      · exact hTakes

/-- Whatever the input is and whatever the stack holds: no access to
`hex_quads` is outside it, no entry is read before it is written, all that is
copied was written, and a return of 0 leaves the result alone. -/
theorem unformatIp6Address_disciplined (host : ByteOrder) (garbage : Int → UInt16)
    (input : UnformatInput) (result : Int → UInt16) :
    let out := unformatIp6Address host garbage input result
    Disciplined 8 out.hexQuads.accesses ∧
      TakesInput input out.events out.input ∧
      (out.ret = false → out.result = ⟨result, []⟩) ∧
      (out.ret = true → CopiesWritten out.hexQuads.accesses out.result.accesses) := by
  obtain ⟨model, -, hOut⟩ := unformatIp6Address_refines host garbage input result
  exact ⟨hOut.disciplined, unformatIp6Address_takesInput host garbage input result,
    hOut.untouched, hOut.copied⟩

end DpdkPerf.UdpEcho.Raw
