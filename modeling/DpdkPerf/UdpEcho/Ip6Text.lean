import DpdkPerf.UdpEcho.Ip6Address
import Mathlib.Algebra.Ring.Nat

/-! The colon-hex form of an IPv6 address, and that udp-echo reads every text
of it. -/
namespace DpdkPerf.UdpEcho

structure HexDigit where
  value : Fin 16
  /-- The case of a digit from ten on. -/
  upper : Bool
  deriving DecidableEq, Repr

def HexDigit.char (d : HexDigit) : UInt8 :=
  if d.value < 10 then UInt8.ofNat ('0'.toNat + d.value)
  else if d.upper then UInt8.ofNat ('A'.toNat + (d.value - 10))
  else UInt8.ofNat ('a'.toNat + (d.value - 10))

structure HexGroup where
  digits : List HexDigit
  pos : 0 < digits.length
  le_four : digits.length ≤ 4

namespace HexGroup

def text (g : HexGroup) : List UInt8 := g.digits.map HexDigit.char

/-- Digits read after those of a number. -/
def extend (n : Nat) (digits : List HexDigit) : Nat :=
  digits.foldl (fun n d => 16 * n + d.value) n

def number (g : HexGroup) : Nat := extend 0 g.digits

def quad (g : HexGroup) : UInt16 := UInt16.ofNat g.number

/-- Groups separated by single colons. -/
def join (groups : List HexGroup) : List UInt8 := [colon].intercalate (groups.map text)

@[simp] theorem join_nil : join [] = [] := rfl

theorem join_singleton (g : HexGroup) : join [g] = g.text := List.intercalate_singleton

theorem join_cons (g : HexGroup) {groups : List HexGroup} (h : groups ≠ []) :
    join (g :: groups) = g.text ++ colon :: join groups := by
  rw [join, List.map_cons, List.intercalate_cons_of_ne_nil (by simpa using h), List.append_assoc]
  rfl

end HexGroup

/-- A text of an IPv6 address. -/
inductive Ip6Text where
  | full (groups : List HexGroup) (eight : groups.length = 8)
  | compressed (before after : List HexGroup) (short : before.length + after.length ≤ 7)

namespace Ip6Text

def text : Ip6Text → List UInt8
  | full groups _ => HexGroup.join groups
  | compressed before after _ => HexGroup.join before ++ [colon, colon] ++ HexGroup.join after

/-- The address: "::" is the missing number of zero groups. -/
def quads : Ip6Text → List UInt16
  | full groups _ => groups.map HexGroup.quad
  | compressed before after _ =>
      before.map HexGroup.quad ++ List.replicate (8 - (before.length + after.length)) 0 ++
        after.map HexGroup.quad

/-- Every text stands for eight groups. -/
theorem length_quads (t : Ip6Text) : t.quads.length = 8 := by
  cases t with
  | full groups eight => rw [quads, List.length_map, eight]
  | compressed before after short =>
      simp only [quads, List.length_append, List.length_map, List.length_replicate]
      omega

end Ip6Text

/-- What follows is no part of the address. -/
def Ends (rest : List UInt8) : Prop := ∀ c ∈ rest.head?, c ≠ colon ∧ ∀ d : HexDigit, d.char ≠ c

theorem hexDigitOf_char (d : HexDigit) : hexDigitOf d.char = d.value := by
  obtain ⟨value, upper⟩ := d
  revert value upper
  decide

/-- Every character that counts as a digit is one. -/
theorem exists_char {c : UInt8} (h : hexDigitOf c < 16) : ∃ d : HexDigit, d.char = c := by
  unfold hexDigitOf at h
  simp only [UInt8.le_iff_toNat_le] at h
  split_ifs at h with hNumber hLower hUpper
  · have hLow : 48 ≤ c.toNat := hNumber.1
    have hHigh : c.toNat ≤ 57 := hNumber.2
    refine ⟨⟨⟨c.toNat - 48, h⟩, false⟩, ?_⟩
    rw [HexDigit.char, if_pos (Fin.lt_def.mpr (show c.toNat - 48 < 10 by omega))]
    show UInt8.ofNat (48 + (c.toNat - 48)) = c
    rw [Nat.add_sub_cancel' hLow, UInt8.ofNat_toNat]
  · have hLow : 97 ≤ c.toNat := hLower.1
    refine ⟨⟨⟨c.toNat + 10 - 97, h⟩, false⟩, ?_⟩
    rw [HexDigit.char, if_neg (fun hLt => absurd (Fin.lt_def.mp hLt)
      (show ¬ c.toNat + 10 - 97 < 10 by omega)), if_neg Bool.false_ne_true]
    show UInt8.ofNat (97 + (c.toNat + 10 - 97 - 10)) = c
    rw [show 97 + (c.toNat + 10 - 97 - 10) = c.toNat by omega, UInt8.ofNat_toNat]
  · have hLow : 65 ≤ c.toNat := hUpper.1
    refine ⟨⟨⟨c.toNat + 10 - 65, h⟩, true⟩, ?_⟩
    rw [HexDigit.char, if_neg (fun hLt => absurd (Fin.lt_def.mp hLt)
      (show ¬ c.toNat + 10 - 65 < 10 by omega)), if_pos rfl]
    show UInt8.ofNat (65 + (c.toNat + 10 - 65 - 10)) = c
    rw [show 65 + (c.toNat + 10 - 65 - 10) = c.toNat by omega, UInt8.ofNat_toNat]
  · omega

/-- A digit goes into the low four bits. -/
theorem shift_or (n d : Nat) (h : d < 16) :
    (UInt64.ofNat n <<< 4) ||| UInt64.ofNat d = UInt64.ofNat (16 * n + d) := by
  have hShift : UInt64.ofNat n <<< 4 = UInt64.ofNat ((n % 2 ^ 60) <<< 4) := by
    apply UInt64.toNat_inj.mp
    simp [Nat.shiftLeft_eq]
    omega
  rw [hShift, ← UInt64.ofNat_or, ← Nat.shiftLeft_add_eq_or_of_lt h, Nat.shiftLeft_eq]
  apply UInt64.toNat_inj.mp
  rw [UInt64.toNat_ofNat', UInt64.toNat_ofNat']
  omega

/-- The loop between two groups. -/
def Scan.between (quads : List UInt16) (nColon doubleColonIndex : Nat) : Scan :=
  { hexQuads := .ofList quads
    nHexQuads := quads.length
    nColon := nColon
    doubleColonIndex := doubleColonIndex }

/-- The loop in a group, after some digits. -/
def Scan.within (quads : List UInt16) (number nHexDigits doubleColonIndex : Nat) : Scan :=
  { hexQuads := .ofList quads
    hexQuad := UInt64.ofNat number
    nHexQuads := quads.length
    nHexDigits := nHexDigits
    doubleColonIndex := doubleColonIndex }

/-- The loop goes on with the next character. -/
theorem scanLoop_next {s s' : Scan} {c : UInt8} (h : scanRound s c = some (.next s'))
    (taken rest : List UInt8) : scanLoop s taken (c :: rest) = scanLoop s' (c :: taken) rest := by
  show (scanRound s c).bind _ = _
  rw [h]
  rfl

theorem scanLoop_putBack {s : Scan} {c : UInt8} (h : scanRound s c = some .putBack)
    (taken rest : List UInt8) :
    scanLoop s taken (c :: rest) = some (.done s ⟨taken, c :: rest⟩) := by
  show (scanRound s c).bind _ = _
  rw [h]
  rfl

theorem scanLoop_returnZero {s : Scan} {c : UInt8} (h : scanRound s c = some .returnZero)
    (taken rest : List UInt8) :
    scanLoop s taken (c :: rest) = some (.returnZero ⟨c :: taken, rest⟩) := by
  show (scanRound s c).bind _ = _
  rw [h]
  rfl

/-- What follows the text is not taken. -/
theorem scanLoop_ends (s : Scan) (taken : List UInt8) {rest : List UInt8} (h : Ends rest) :
    scanLoop s taken rest = some (.done s ⟨taken, rest⟩) := by
  cases rest with
  | nil => rfl
  | cons c rest =>
      obtain ⟨hColon, hDigit⟩ := h c rfl
      have hNone : s.classify c = none := by
        rw [Scan.classify, if_neg, if_neg (fun hc => hColon hc.1)]
        intro hLt
        obtain ⟨d, hd⟩ := exists_char hLt
        exact hDigit d hd
      have hRound : scanRound s c = some .putBack := by
        unfold scanRound
        rw [hNone]
      exact scanLoop_putBack hRound taken rest

variable {quads : List UInt16} {doubleColonIndex : Nat}

/-- A digit of a group is taken into the number. -/
theorem scanRound_char {s : Scan} {number : Nat} (d : HexDigit)
    (hQuad : s.hexQuad = UInt64.ofNat number) (hRoom : s.nHexQuads < 8)
    (hFew : s.nHexDigits < 4) :
    scanRound s d.char = some (.next
      { s with
        hexQuad := UInt64.ofNat (16 * number + d.value)
        nColon := 0
        nHexDigits := s.nHexDigits + 1 }) := by
  have hDigit : hexDigitOf d.char < 16 := by
    rw [hexDigitOf_char]
    exact d.value.isLt
  rw [scanRound_digit hDigit hRoom hFew, hexDigitOf_char, hQuad, shift_or _ _ d.value.isLt]

/-- The digits of a group after the first. -/
theorem scanLoop_digits (digits : List HexDigit) (number nHexDigits : Nat)
    (taken rest : List UInt8) (hRoom : quads.length < 8)
    (hFew : nHexDigits + digits.length ≤ 4) :
    scanLoop (.within quads number nHexDigits doubleColonIndex) taken
        (digits.map HexDigit.char ++ rest) =
      scanLoop (.within quads (HexGroup.extend number digits) (nHexDigits + digits.length)
        doubleColonIndex) ((digits.map HexDigit.char).reverse ++ taken) rest := by
  induction digits generalizing number nHexDigits taken with
  | nil => rfl
  | cons d digits ih =>
      rw [List.length_cons] at hFew
      have hRound : scanRound (.within quads number nHexDigits doubleColonIndex) d.char =
          some (.next (.within quads (16 * number + d.value) (nHexDigits + 1)
            doubleColonIndex)) :=
        scanRound_char d rfl hRoom (show nHexDigits < 4 by omega)
      rw [List.map_cons, List.cons_append, scanLoop_next hRound,
        ih (16 * number + d.value) (nHexDigits + 1) (d.char :: taken) (by omega),
        List.reverse_cons, List.append_assoc, List.length_cons, Nat.add_assoc, Nat.add_comm 1]
      rfl

/-- The loop reads a group to its end. -/
theorem scanLoop_group (g : HexGroup) (nColon : Nat) (taken rest : List UInt8)
    (hRoom : quads.length < 8) :
    scanLoop (.between quads nColon doubleColonIndex) taken (g.text ++ rest) =
      scanLoop (.within quads g.number g.digits.length doubleColonIndex)
        (g.text.reverse ++ taken) rest := by
  obtain ⟨digits, pos, le_four⟩ := g
  cases digits with
  | nil => exact absurd pos (Nat.lt_irrefl 0)
  | cons d digits =>
      rw [List.length_cons] at le_four
      have hRound : scanRound (.between quads nColon doubleColonIndex) d.char =
          some (.next (.within quads (16 * 0 + d.value) 1 doubleColonIndex)) :=
        scanRound_char d rfl hRoom (show 0 < 4 by omega)
      show scanLoop _ taken (d.char :: (digits.map HexDigit.char ++ rest)) = _
      rw [scanLoop_next hRound, scanLoop_digits digits _ 1 _ rest hRoom (by omega)]
      show scanLoop _ ((digits.map HexDigit.char).reverse ++ d.char :: taken) rest =
        scanLoop _ ((d.char :: digits.map HexDigit.char).reverse ++ taken) rest
      rw [List.reverse_cons, List.append_assoc, Nat.add_comm 1]
      rfl

theorem toUInt16_number (g : HexGroup) : (UInt64.ofNat g.number).toUInt16 = g.quad :=
  UInt64.toUInt16_ofNat' g.number

/-- Behind a group and its colon the loop stands in front of the next. -/
theorem between_append (quads : List UInt16) (quad : UInt16) (nColon doubleColonIndex : Nat) :
    Scan.between (quads ++ [quad]) nColon doubleColonIndex =
      { hexQuads := .ofList (quads ++ [quad])
        nHexQuads := quads.length + 1
        nColon := nColon
        doubleColonIndex := doubleColonIndex } := by
  rw [Scan.between, List.length_append]
  rfl

/-- The ":" between two groups, or the first of a "::" after a group. -/
theorem scanRound_within_colon (g : HexGroup) (hRoom : quads.length < 8) :
    scanRound (.within quads g.number g.digits.length doubleColonIndex) colon =
      some (.next (.between (quads ++ [g.quad]) 1 doubleColonIndex)) := by
  rw [scanRound_colon_group quads rfl rfl hRoom g.pos rfl, between_append, ← toUInt16_number]
  rfl

/-- Groups, the last of which may still go on. -/
theorem scanLoop_groups (quads : List UInt16) (groups : List HexGroup) (last : HexGroup)
    (nColon : Nat) (taken rest : List UInt8) (hRoom : quads.length + groups.length < 8) :
    scanLoop (.between quads nColon doubleColonIndex) taken
        (HexGroup.join (groups ++ [last]) ++ rest) =
      scanLoop (.within (quads ++ groups.map HexGroup.quad) last.number last.digits.length
        doubleColonIndex) ((HexGroup.join (groups ++ [last])).reverse ++ taken) rest := by
  induction groups generalizing quads nColon taken with
  | nil =>
      rw [List.nil_append, HexGroup.join_singleton, List.map_nil, List.append_nil]
      exact scanLoop_group last nColon taken rest hRoom
  | cons g groups ih =>
      rw [List.length_cons] at hRoom
      have hRest := ih (quads ++ [g.quad]) 1 (colon :: (g.text.reverse ++ taken))
        (by rw [List.length_append, List.length_singleton]; omega)
      rw [List.cons_append, HexGroup.join_cons g (by simp), List.append_assoc,
        scanLoop_group g nColon taken _ (by omega), List.cons_append,
        scanLoop_next (scanRound_within_colon g (by omega)), hRest, List.append_assoc,
        List.reverse_append, List.reverse_cons, List.append_assoc, List.append_assoc]
      rfl

/-- After a last group. -/
theorem storeLast_within (g : HexGroup) (hRoom : quads.length < 8) :
    (Scan.within quads g.number g.digits.length doubleColonIndex).storeLast =
      some (.between (quads ++ [g.quad]) 0 doubleColonIndex) := by
  have hDigits : 0 < (Scan.within quads g.number g.digits.length doubleColonIndex).nHexDigits :=
    g.pos
  rw [Scan.storeLast, if_pos hDigits, Scan.storeQuad_ofList quads rfl rfl hRoom, between_append,
    ← toUInt16_number]
  rfl

/-- What follows the loop, when eight groups are there in the end. -/
theorem unformatIp6Address_of_done (host : ByteOrder) {taken rest : List UInt8}
    {input : UnformatInput} {s s₁ s₂ : Scan} {all : List UInt16} (result : Ip6Address)
    (hLoop : scanLoop {} taken rest = some (.done s input)) (hStore : s.storeLast = some s₁)
    (hExpand : s₁.expand = some s₂) (hQuads : s₂.hexQuads = .ofList all)
    (hCount : s₂.nHexQuads = 8) (hAll : all.length = 8) :
    ∃ address, unformatIp6Address host ⟨taken, rest⟩ result = some ⟨true, input, address⟩ ∧
      address.asU8 host = all.flatMap ByteOrder.big.bytes := by
  obtain ⟨address, hCopy, hBytes⟩ := copyQuads_ofList host hAll result
  refine ⟨address, ?_, hBytes⟩
  show (scanLoop {} taken rest).bind _ = _
  rw [hLoop]
  show s.storeLast.bind _ = _
  rw [hStore]
  show s₁.expand.bind _ = _
  rw [hExpand]
  show (if s₂.nHexQuads < 8 then _ else (copyQuads host s₂.hexQuads result).bind _) = _
  rw [hCount, if_neg (Nat.lt_irrefl 8), hQuads, hCopy]
  rfl

theorem between_initial : ({} : Scan) = .between [] 0 8 := rfl

/-- Groups with nothing in front of them, at the end of the text. -/
theorem exists_storeLast (doubleColonIndex : Nat) (quads : List UInt16) (groups : List HexGroup)
    (nColon : Nat) (taken : List UInt8) {rest : List UInt8}
    (hRoom : quads.length + groups.length ≤ 8) (hRest : Ends rest) :
    ∃ s nColon', scanLoop (.between quads nColon doubleColonIndex) taken
        (HexGroup.join groups ++ rest) =
          some (.done s ⟨(HexGroup.join groups).reverse ++ taken, rest⟩) ∧
      s.storeLast =
        some (.between (quads ++ groups.map HexGroup.quad) nColon' doubleColonIndex) := by
  rcases List.eq_nil_or_concat groups with rfl | ⟨groups, last, rfl⟩
  · rw [List.map_nil, List.append_nil]
    exact ⟨_, nColon, scanLoop_ends _ taken hRest, rfl⟩
  · rw [List.concat_eq_append, List.length_append, List.length_singleton] at hRoom
    rw [List.concat_eq_append]
    refine ⟨.within (quads ++ groups.map HexGroup.quad) last.number last.digits.length
      doubleColonIndex, 0, ?_, ?_⟩
    · rw [scanLoop_groups quads groups last nColon taken rest (by omega), scanLoop_ends _ _ hRest]
    · rw [storeLast_within last (by rw [List.length_append, List.length_map]; omega),
        List.map_append, List.append_assoc]
      rfl

/-- The "::" after some groups. -/
theorem scanLoop_double (before : List HexGroup) (taken rest : List UInt8)
    (hRoom : before.length < 8) :
    scanLoop {} taken (HexGroup.join before ++ [colon, colon] ++ rest) =
      scanLoop (.between (before.map HexGroup.quad) 2 before.length)
        ((HexGroup.join before ++ [colon, colon]).reverse ++ taken) rest := by
  have hSecond (quads : List UInt16) (hQuads : quads.length < 8) :
      scanRound (.between quads 1 8) colon = some (.next (.between quads 2 quads.length)) :=
    scanRound_colon_double hQuads rfl rfl rfl
  rw [List.append_assoc, between_initial]
  rcases List.eq_nil_or_concat before with rfl | ⟨before, last, rfl⟩
  · have hFirst : scanRound (.between [] 0 8) colon = some (.next (.between [] 1 8)) :=
      scanRound_colon_start hRoom rfl rfl
    show scanLoop _ taken (colon :: colon :: rest) = _
    rw [scanLoop_next hFirst, scanLoop_next (hSecond [] hRoom)]
    rfl
  · rw [List.concat_eq_append] at hRoom ⊢
    rw [List.length_append, List.length_singleton] at hRoom
    rw [scanLoop_groups [] before last 0 taken _ (by rw [List.length_nil]; omega)]
    show scanLoop _ _ (colon :: colon :: rest) = _
    rw [scanLoop_next (scanRound_within_colon last (by simpa using by omega)),
      scanLoop_next (hSecond _ (by simpa using hRoom))]
    simp

/-- A text of eight groups is read. -/
theorem unformatIp6Address_full (host : ByteOrder) {groups : List HexGroup}
    (eight : groups.length = 8) (taken : List UInt8) {rest : List UInt8} (result : Ip6Address)
    (hRest : Ends rest) :
    ∃ address, unformatIp6Address host ⟨taken, (Ip6Text.full groups eight).text ++ rest⟩ result =
        some ⟨true, ⟨(Ip6Text.full groups eight).text.reverse ++ taken, rest⟩, address⟩ ∧
      address.asU8 host = (Ip6Text.full groups eight).quads.flatMap ByteOrder.big.bytes := by
  obtain ⟨s, nColon, hLoop, hStore⟩ := exists_storeLast 8 [] groups 0 taken
    (by rw [List.length_nil]; omega) hRest
  have hCount : (groups.map HexGroup.quad).length = 8 := by rw [List.length_map, eight]
  have hExpand : (Scan.between (groups.map HexGroup.quad) nColon 8).expand =
      some (.between (groups.map HexGroup.quad) nColon 8) := if_neg (Nat.lt_irrefl 8)
  exact unformatIp6Address_of_done host result hLoop hStore hExpand rfl hCount hCount

/-- A text with a double colon is read, which stands for the groups that are
missing. -/
theorem unformatIp6Address_compressed (host : ByteOrder) {before after : List HexGroup}
    (short : before.length + after.length ≤ 7) (taken : List UInt8) {rest : List UInt8}
    (result : Ip6Address) (hRest : Ends rest) :
    ∃ address, unformatIp6Address host
        ⟨taken, (Ip6Text.compressed before after short).text ++ rest⟩ result =
          some ⟨true, ⟨(Ip6Text.compressed before after short).text.reverse ++ taken, rest⟩,
            address⟩ ∧
      address.asU8 host =
        (Ip6Text.compressed before after short).quads.flatMap ByteOrder.big.bytes := by
  obtain ⟨s, nColon, hLoop, hStore⟩ := exists_storeLast before.length
    (before.map HexGroup.quad) after 2
    ((HexGroup.join before ++ [colon, colon]).reverse ++ taken)
    (by rw [List.length_map]; omega) hRest
  rw [← scanLoop_double before taken _ (by omega), ← List.append_assoc, ← List.append_assoc,
    ← List.reverse_append] at hLoop
  have hLength : (before.map HexGroup.quad ++ after.map HexGroup.quad).length =
      before.length + after.length := by
    rw [List.length_append, List.length_map, List.length_map]
  have hExpand := Scan.expand_ofList (s := .between
      (before.map HexGroup.quad ++ after.map HexGroup.quad) nColon before.length) rfl rfl
    (by rw [List.length_map]; rfl) (by rw [List.length_map]; omega) (by omega)
  rw [hLength] at hExpand
  exact unformatIp6Address_of_done host result hLoop hStore hExpand rfl rfl
    (Ip6Text.length_quads (.compressed before after short))

/-- Every text of the form is read to its end, whatever follows it, and gives
its address in network byte order. -/
theorem unformatIp6Address_complete (host : ByteOrder) (t : Ip6Text) (taken rest : List UInt8)
    (result : Ip6Address) (hRest : Ends rest) :
    ∃ address, unformatIp6Address host ⟨taken, t.text ++ rest⟩ result =
        some ⟨true, ⟨t.text.reverse ++ taken, rest⟩, address⟩ ∧
      address.asU8 host = t.quads.flatMap ByteOrder.big.bytes := by
  cases t with
  | full groups eight => exact unformatIp6Address_full host eight taken result hRest
  | compressed before after short =>
      exact unformatIp6Address_compressed host short taken result hRest

/-- The text "2001:dB8::1" before "/7". -/
theorem unformatIp6Address_complete_compressed :
    ∃ address, unformatIp6Address .little
        ⟨[], "2001:dB8::1".toList.map Char.toUInt8 ++ "/7".toList.map Char.toUInt8⟩
        ⟨fun _ => 0⟩ =
      some ⟨true, ⟨("2001:dB8::1".toList.map Char.toUInt8).reverse,
        "/7".toList.map Char.toUInt8⟩, address⟩ ∧
      address.asU8 .little = [0x20, 0x01, 0x0d, 0xb8, 0, 0, 0, 0, 0, 0, 0, 0, 0, 0, 0, 1] := by
  exact unformatIp6Address_complete .little
    (.compressed
      [⟨[⟨2, false⟩, ⟨0, false⟩, ⟨0, false⟩, ⟨1, false⟩], by decide, by decide⟩,
        ⟨[⟨13, false⟩, ⟨11, true⟩, ⟨8, false⟩], by decide, by decide⟩]
      [⟨[⟨1, false⟩], by decide, by decide⟩] (by decide))
    [] ("/7".toList.map Char.toUInt8) ⟨fun _ => 0⟩ (by
      rintro c ⟨⟩
      refine ⟨by decide, ?_⟩
      rintro ⟨value, upper⟩
      revert value upper
      decide)

end DpdkPerf.UdpEcho
