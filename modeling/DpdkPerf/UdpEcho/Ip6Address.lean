import DpdkPerf.Machine.Cells

/-! The parser of IPv6 addresses in udp-echo: one pass over the input, the
groups stored as they end, and "::" expanded in place after the pass. An
access to `hex_quads` that C leaves undefined has no result. -/
namespace DpdkPerf.UdpEcho

/-- The characters taken, the last one first, and those still to come. -/
structure UnformatInput where
  taken : List UInt8
  rest : List UInt8
  deriving DecidableEq, Repr

/-- The last character taken is to come again. -/
def UnformatInput.unformatPutInput : UnformatInput → UnformatInput
  | ⟨c :: taken, rest⟩ => ⟨taken, c :: rest⟩
  | ⟨[], rest⟩ => ⟨[], rest⟩

inductive ByteOrder where
  | little
  | big
  deriving DecidableEq, Repr

/-- A u16 in memory. -/
def ByteOrder.bytes (x : UInt16) : ByteOrder → List UInt8
  | .little => [x.toUInt8, (x >>> 8).toUInt8]
  | .big => [(x >>> 8).toUInt8, x.toUInt8]

def clibHostToNetU16 (x : UInt16) : ByteOrder → UInt16
  | .little => (x >>> 8) ||| (x <<< 8)
  | .big => x

/-- `as_u16` of the union. -/
structure Ip6Address where
  asU16 : Fin 8 → UInt16

def Ip6Address.store (a : Ip6Address) (i : Fin 8) (x : UInt16) : Ip6Address :=
  ⟨Function.update a.asU16 i x⟩

theorem Ip6Address.asU16_store (a : Ip6Address) (i j : Fin 8) (x : UInt16) :
    (a.store i x).asU16 j = if j = i then x else a.asU16 j :=
  Function.update_apply a.asU16 i x j

/-- `as_u8` of the union. -/
def Ip6Address.asU8 (a : Ip6Address) (host : ByteOrder) : List UInt8 :=
  (List.ofFn a.asU16).flatMap host.bytes

/-- The local variables of the loop. No counter ever exceeds 8. -/
structure Scan where
  hexQuads : Cells 8 UInt16 := .ofList []
  hexQuad : UInt64 := 0
  nHexQuads : Nat := 0
  nHexDigits : Nat := 0
  nColon : Nat := 0
  doubleColonIndex : Nat := 8

def colon : UInt8 := ':'.toUInt8

/-- The value of a digit, 16 for any other character. -/
def hexDigitOf (c : UInt8) : Nat :=
  if '0'.toUInt8 ≤ c ∧ c ≤ '9'.toUInt8 then c.toNat - '0'.toNat
  else if 'a'.toUInt8 ≤ c ∧ c ≤ 'f'.toUInt8 then c.toNat + 10 - 'a'.toNat
  else if 'A'.toUInt8 ≤ c ∧ c ≤ 'F'.toUInt8 then c.toNat + 10 - 'A'.toNat
  else 16

namespace Scan

/-- The chain of tests on a character; `none` puts it back. -/
def classify (s : Scan) (c : UInt8) : Option Scan :=
  if hexDigitOf c < 16 then some s
  else if c = colon ∧ s.nColon < 2 then some { s with nColon := s.nColon + 1 }
  else none

/-- `none` is a group of more than four digits. -/
def takeDigit (s : Scan) (hexDigit : Nat) : Option Scan :=
  if hexDigit < 16 then
    if 4 ≤ s.nHexDigits then none
    else some
      { s with
        hexQuad := (s.hexQuad <<< 4) ||| UInt64.ofNat hexDigit
        nColon := 0
        nHexDigits := s.nHexDigits + 1 }
  else some s

/-- `none` is a second "::". -/
def markDoubleColon (s : Scan) : Option Scan :=
  if s.nColon = 2 then
    if s.doubleColonIndex < 8 then none
    else some { s with doubleColonIndex := s.nHexQuads }
  else some s

/-- `hex_quads[n_hex_quads++] = hex_quad`. -/
def storeQuad (s : Scan) : Option Scan := do
  let hexQuads ← s.hexQuads.write s.nHexQuads s.hexQuad.toUInt16
  some
    { s with
      hexQuads := hexQuads
      nHexQuads := s.nHexQuads + 1
      hexQuad := 0
      nHexDigits := 0 }

/-- A ":" ends the group before it. -/
def storeEnded (s : Scan) : Option Scan :=
  if 0 < s.nColon ∧ 0 < s.nHexDigits then s.storeQuad else some s

/-- The last group, if there is one. -/
def storeLast (s : Scan) : Option Scan :=
  if 0 < s.nHexDigits then s.storeQuad else some s

/-- "Expand :: to appropriate number of zero hex quads." -/
def expand (s : Scan) : Option Scan :=
  if s.doubleColonIndex < 8 then do
    let nZero := 8 - s.nHexQuads
    let hexQuads ← s.hexQuads.moveUp nZero s.doubleColonIndex s.nHexQuads
    let hexQuads ← hexQuads.fill 0 s.doubleColonIndex nZero
    some { s with hexQuads := hexQuads, nHexQuads := 8 }
  else some s

end Scan

/-- How a round of the loop ends. -/
inductive Round where
  | putBack
  | returnZero
  | next (s : Scan)

def scanRound (s : Scan) (c : UInt8) : Option Round :=
  match s.classify c with
  | none => some .putBack
  | some s =>
      if 8 ≤ s.nHexQuads then some .returnZero
      else
        match s.takeDigit (hexDigitOf c) with
        | none => some .returnZero
        | some s =>
            match s.markDoubleColon with
            | none => some .returnZero
            | some s => s.storeEnded.map .next

/-- How the loop ends: by the end of the input or a character put back, or by
`return 0`. -/
inductive ScanEnd where
  | done (s : Scan) (input : UnformatInput)
  | returnZero (input : UnformatInput)

def ScanEnd.input : ScanEnd → UnformatInput
  | .done _ input => input
  | .returnZero input => input

/-- The loop. A round moves a character to those taken. -/
def scanLoop (s : Scan) (taken : List UInt8) : (rest : List UInt8) → Option ScanEnd
  | [] => some (.done s ⟨taken, []⟩)
  | c :: rest => do
      match ← scanRound s c with
      | .putBack => some (.done s (UnformatInput.unformatPutInput ⟨c :: taken, rest⟩))
      | .returnZero => some (.returnZero ⟨c :: taken, rest⟩)
      | .next s => scanLoop s (c :: taken) rest

/-- The loop that copies `hex_quads` to the result. -/
def copyQuads (host : ByteOrder) (hexQuads : Cells 8 UInt16) (result : Ip6Address) :
    Option Ip6Address :=
  (List.finRange 8).foldlM (fun result (i : Fin 8) => do
    let quad ← hexQuads.read i.val
    some (result.store i (clibHostToNetU16 quad host))) result

/-- What a parser returns, where it leaves the input, and what `result` then
points to. -/
structure Unformatted (α : Type) where
  ret : Bool
  input : UnformatInput
  result : α

def unformatIp6Address (host : ByteOrder) (input : UnformatInput) (result : Ip6Address) :
    Option (Unformatted Ip6Address) := do
  match ← scanLoop {} input.taken input.rest with
  | .returnZero input => some ⟨false, input, result⟩
  | .done s input =>
      let s ← s.storeLast
      let s ← s.expand
      if s.nHexQuads < 8 then some ⟨false, input, result⟩
      else do
        let result ← copyQuads host s.hexQuads result
        some ⟨true, input, result⟩

/-- The low byte of a swapped word is its high byte. -/
theorem toUInt8_swap (x : UInt16) : ((x >>> 8) ||| (x <<< 8)).toUInt8 = (x >>> 8).toUInt8 := by
  apply UInt8.toBitVec_inj.mp
  apply BitVec.eq_of_getLsbD_eq
  intro i _
  simp

theorem toUInt8_swap_shift (x : UInt16) :
    (((x >>> 8) ||| (x <<< 8)) >>> 8).toUInt8 = x.toUInt8 := by
  apply UInt8.toBitVec_inj.mp
  apply BitVec.eq_of_getLsbD_eq
  intro i hi
  have hNone : x.toBitVec.getLsbD (8 + (8 + i)) = false := BitVec.getLsbD_of_ge _ _ (by omega)
  have hIn : 8 + i < 16 := by omega
  have hOut : ¬ 8 + i < 8 := by omega
  simp [hNone, hIn, hOut, hi]
  rfl

/-- On any host the bytes of the result are in network order. -/
theorem bytes_clibHostToNetU16 (x : UInt16) (host : ByteOrder) :
    host.bytes (clibHostToNetU16 x host) = ByteOrder.big.bytes x := by
  cases host with
  | big => rfl
  | little =>
      show [((x >>> 8) ||| (x <<< 8)).toUInt8, (((x >>> 8) ||| (x <<< 8)) >>> 8).toUInt8] = _
      rw [toUInt8_swap, toUInt8_swap_shift]
      rfl

/-- A round of the copy writes one entry of the result. -/
theorem foldlM_store (host : ByteOrder) (hexQuads : Cells 8 UInt16) (quad : Fin 8 → UInt16)
    (hRead : ∀ i, hexQuads.read i.val = some (quad i)) (is : List (Fin 8)) (result : Ip6Address) :
    ∃ address, is.foldlM (fun result (i : Fin 8) => do
        let quad ← hexQuads.read i.val
        some (result.store i (clibHostToNetU16 quad host))) result = some address ∧
      (∀ i ∈ is, address.asU16 i = clibHostToNetU16 (quad i) host) ∧
      ∀ i, i ∉ is → address.asU16 i = result.asU16 i := by
  induction is generalizing result with
  | nil => exact ⟨result, rfl, fun i hi => absurd hi List.not_mem_nil, fun _ _ => rfl⟩
  | cons i is ih =>
      obtain ⟨address, hFold, hIn, hOut⟩ := ih (result.store i (clibHostToNetU16 (quad i) host))
      refine ⟨address, ?_, ?_, ?_⟩
      · rw [List.foldlM_cons, hRead]
        exact hFold
      · intro j hj
        by_cases hLater : j ∈ is
        · exact hIn j hLater
        · obtain rfl : j = i := (List.mem_cons.mp hj).resolve_right hLater
          rw [hOut j hLater, Ip6Address.asU16_store, if_pos rfl]
      · intro j hj
        rw [List.mem_cons, not_or] at hj
        rw [hOut j hj.2, Ip6Address.asU16_store, if_neg hj.1]

/-- Eight groups are stored in network order, on either host. -/
theorem copyQuads_ofList (host : ByteOrder) {quads : List UInt16} (h : quads.length = 8)
    (result : Ip6Address) :
    ∃ address, copyQuads host (.ofList quads) result = some address ∧
      address.asU8 host = quads.flatMap ByteOrder.big.bytes := by
  obtain ⟨address, hCopy, hIn, -⟩ := foldlM_store host (.ofList quads)
    (fun i => quads[i.val]) (fun i => by
      rw [Cells.read_ofList (Nat.le_of_eq h), List.getElem?_eq_getElem]) (List.finRange 8) result
  refine ⟨address, hCopy, ?_⟩
  have hWords : List.ofFn address.asU16 = quads.map fun x => clibHostToNetU16 x host := by
    apply List.ext_getElem
    · rw [List.length_ofFn, List.length_map, h]
    · intro i h₁ h₂
      rw [List.getElem_ofFn, hIn _ (List.mem_finRange _), List.getElem_map]
  rw [Ip6Address.asU8, hWords, List.flatMap_map]
  simp only [bytes_clibHostToNetU16]

namespace Scan

/-- A digit is taken while there are fewer than four. -/
theorem takeDigit_digit {s : Scan} {hexDigit : Nat} (hDigit : hexDigit < 16)
    (hFew : s.nHexDigits < 4) :
    s.takeDigit hexDigit = some
      { s with
        hexQuad := (s.hexQuad <<< 4) ||| UInt64.ofNat hexDigit
        nColon := 0
        nHexDigits := s.nHexDigits + 1 } := by
  rw [takeDigit, if_pos hDigit, if_neg (Nat.not_le.mpr hFew)]

/-- A group is stored behind the others while there is room. -/
theorem storeQuad_ofList {s : Scan} (quads : List UInt16) (hQuads : s.hexQuads = .ofList quads)
    (hCount : s.nHexQuads = quads.length) (hRoom : quads.length < 8) :
    s.storeQuad = some
      { s with
        hexQuads := .ofList (quads ++ [s.hexQuad.toUInt16])
        nHexQuads := quads.length + 1
        hexQuad := 0
        nHexDigits := 0 } := by
  rw [storeQuad, hQuads, hCount, Cells.write_ofList hRoom]
  rfl

/-- The groups after the "::" move to the end, and zeros take their place. -/
theorem expand_ofList {s : Scan} {before after : List UInt16}
    (hQuads : s.hexQuads = .ofList (before ++ after))
    (hCount : s.nHexQuads = (before ++ after).length)
    (hIndex : s.doubleColonIndex = before.length) (hBefore : before.length < 8)
    (hRoom : (before ++ after).length ≤ 8) :
    s.expand = some
      { s with
        hexQuads := .ofList
          (before ++ List.replicate (8 - (before ++ after).length) 0 ++ after)
        nHexQuads := 8 } := by
  have hInsert := Cells.moveUp_fill 8 before after (0 : UInt16) (8 - (before ++ after).length)
    (by rw [List.length_append] at hRoom ⊢; omega)
  rw [expand, hIndex, if_pos hBefore, hQuads, hCount]
  obtain ⟨m₁, hMove, hFill⟩ := Option.bind_eq_some_iff.mp hInsert
  show (Cells.moveUp _ _ _ _).bind _ = _
  rw [hMove]
  show (Cells.fill _ _ _ _).bind _ = _
  rw [hFill]
  rfl

end Scan

/-- A digit of a group that has less than four. -/
theorem scanRound_digit {s : Scan} {c : UInt8} (hDigit : hexDigitOf c < 16)
    (hRoom : s.nHexQuads < 8) (hFew : s.nHexDigits < 4) :
    scanRound s c = some (.next
      { s with
        hexQuad := (s.hexQuad <<< 4) ||| UInt64.ofNat (hexDigitOf c)
        nColon := 0
        nHexDigits := s.nHexDigits + 1 }) := by
  have hClass : s.classify c = some s := if_pos hDigit
  simp only [scanRound, hClass, if_neg (Nat.not_le.mpr hRoom), Scan.takeDigit_digit hDigit hFew]
  rfl

theorem hexDigitOf_colon : hexDigitOf colon = 16 := by decide

theorem Scan.classify_colon {s : Scan} (h : s.nColon < 2) :
    s.classify colon = some { s with nColon := s.nColon + 1 } := by
  rw [Scan.classify, hexDigitOf_colon, if_neg (Nat.lt_irrefl 16), if_pos ⟨rfl, h⟩]

/-- What is left of a round on a ":". -/
theorem scanRound_colon {s : Scan} (hRoom : s.nHexQuads < 8) (hColon : s.nColon < 2) :
    scanRound s colon =
      match ({ s with nColon := s.nColon + 1 } : Scan).markDoubleColon with
      | none => some .returnZero
      | some s => s.storeEnded.map .next := by
  have hTake : ({ s with nColon := s.nColon + 1 } : Scan).takeDigit (hexDigitOf colon) =
      some { s with nColon := s.nColon + 1 } := by
    rw [Scan.takeDigit, hexDigitOf_colon, if_neg (Nat.lt_irrefl 16)]
  simp only [scanRound, Scan.classify_colon hColon, if_neg (Nat.not_le.mpr hRoom), hTake]

/-- The ":" after a group stores it. -/
theorem scanRound_colon_group {s : Scan} (quads : List UInt16)
    (hQuads : s.hexQuads = .ofList quads) (hCount : s.nHexQuads = quads.length)
    (hRoom : quads.length < 8) (hDigits : 0 < s.nHexDigits) (hColon : s.nColon = 0) :
    scanRound s colon = some (.next
      { s with
        hexQuads := .ofList (quads ++ [s.hexQuad.toUInt16])
        nHexQuads := quads.length + 1
        hexQuad := 0
        nHexDigits := 0
        nColon := 1 }) := by
  have hStore := Scan.storeQuad_ofList (s := { s with nColon := 1 }) quads hQuads hCount hRoom
  rw [scanRound_colon (by omega) (by omega), Scan.markDoubleColon, hColon, if_neg (by simp)]
  show Option.map Round.next (Scan.storeEnded _) = _
  rw [Scan.storeEnded, if_pos ⟨Nat.one_pos, hDigits⟩, hStore]
  rfl

/-- The second ":" of a "::". -/
theorem scanRound_colon_double {s : Scan} (hRoom : s.nHexQuads < 8) (hDigits : s.nHexDigits = 0)
    (hColon : s.nColon = 1) (hFirst : s.doubleColonIndex = 8) :
    scanRound s colon = some (.next { s with nColon := 2, doubleColonIndex := s.nHexQuads }) := by
  rw [scanRound_colon hRoom (by omega), Scan.markDoubleColon, hColon, if_pos rfl,
    if_neg (by rw [hFirst]; omega)]
  simp [Scan.storeEnded, hDigits]

/-- The first ":" of a "::" at the start. -/
theorem scanRound_colon_start {s : Scan} (hRoom : s.nHexQuads < 8) (hDigits : s.nHexDigits = 0)
    (hColon : s.nColon = 0) :
    scanRound s colon = some (.next { s with nColon := 1 }) := by
  rw [scanRound_colon hRoom (by omega), Scan.markDoubleColon, hColon, if_neg (by simp)]
  simp [Scan.storeEnded, hDigits]

end DpdkPerf.UdpEcho
