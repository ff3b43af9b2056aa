import DpdkPerf.UdpEcho.Ip6Accepted
import Mathlib.Data.Fin.VecNotation
import Mathlib.Data.List.OfFn

/-! The URI of udp-echo, "name://address/port", read with two formats in turn.
`unformat` is outside of the repository: what it does with the pieces of a
format is given. -/
namespace DpdkPerf.UdpEcho

def slash : UInt8 := '/'.toUInt8

def dot : UInt8 := '.'.toUInt8

def plusSign : UInt8 := '+'.toUInt8

def minusSign : UInt8 := '-'.toUInt8

def isWhiteSpace (c : UInt8) : Bool :=
  c == ' '.toUInt8 || c == '\t'.toUInt8 || c == '\n'.toUInt8 || c == '\r'.toUInt8

def isDigit (c : UInt8) : Bool := '0'.toUInt8 ≤ c && c ≤ '9'.toUInt8

def decimalNat (digits : List UInt8) : Nat :=
  digits.foldl (fun n c => 10 * n + (c.toNat - '0'.toNat)) 0

inductive DecimalSign where
  | none
  | plus
  | minus
  deriving DecidableEq, Repr

def DecimalSign.text : DecimalSign → List UInt8
  | .none => []
  | .plus => [plusSign]
  | .minus => [minusSign]

def DecimalSign.apply (n : Nat) : DecimalSign → Int
  | .minus => -n
  | _ => n

/-- An optionally signed decimal. -/
structure Decimal where
  sign : DecimalSign
  digits : List UInt8
  ne_nil : digits ≠ []
  isDigit_of_mem : ∀ c ∈ digits, isDigit c = true

namespace Decimal

def text (d : Decimal) : List UInt8 := d.sign.text ++ d.digits

def value (d : Decimal) : Int := d.sign.apply (decimalNat d.digits)

end Decimal

/-- A digit that follows would be part of the number. -/
def NumberEnds (rest : List UInt8) : Prop := ∀ c ∈ rest.head?, isDigit c = false

/-- What `unformat` does with the pieces of a format. Every piece is read after
a `skip`, and so is the end of the format. -/
structure Unformat where
  skip : UnformatInput → UnformatInput
  literal : List UInt8 → UnformatInput → Option UnformatInput
  /-- "%s" in front of a character of the format. -/
  string : UInt8 → UnformatInput → Option (List UInt8 × UnformatInput)
  /-- "%d". -/
  decimal : UnformatInput → Option (UInt32 × UnformatInput)

/-- White space is skipped, "%s" stops at the character that follows it in the
format, and "%d" stores the low 32 bits of an optionally signed decimal. -/
structure Unformat.Documented (u : Unformat) : Prop where
  skip : ∀ input, ∃ blanks, (∀ c ∈ blanks, isWhiteSpace c = true) ∧
    input.rest = blanks ++ (u.skip input).rest
  literal : ∀ text input input', u.literal text input = some input' →
    input.rest = text ++ input'.rest
  string : ∀ stop input s input', u.string stop input = some (s, input') →
    ∃ front, stop ∉ front ∧ input.rest = front ++ input'.rest
  decimal : ∀ input x input', u.decimal input = some (x, input') →
    ∃ d : Decimal, input.rest = d.text ++ input'.rest ∧ NumberEnds input'.rest ∧
      x = UInt32.ofInt d.value

structure Ip4Address where
  asU8 : Fin 4 → UInt8

/-- "%d.%d.%d.%d". -/
def Unformat.fourDecimals (u : Unformat) (input : UnformatInput) :
    Option ((Fin 4 → UInt32) × UnformatInput) := do
  let (a₀, input) ← u.decimal (u.skip input)
  let input ← u.literal [dot] (u.skip input)
  let (a₁, input) ← u.decimal (u.skip input)
  let input ← u.literal [dot] (u.skip input)
  let (a₂, input) ← u.decimal (u.skip input)
  let input ← u.literal [dot] (u.skip input)
  let (a₃, input) ← u.decimal (u.skip input)
  some (![a₀, a₁, a₂, a₃], u.skip input)

/-- A format that does not match leaves the input where it was. -/
def unformatIp4Address (u : Unformat) (input : UnformatInput) (result : Ip4Address) :
    Unformatted Ip4Address :=
  match u.fourDecimals input with
  | none => ⟨false, input, result⟩
  | some (a, next) =>
      if 256 ≤ a 0 ∨ 256 ≤ a 1 ∨ 256 ≤ a 2 ∨ 256 ≤ a 3 then ⟨false, next, result⟩
      else ⟨true, next, ⟨fun i => (a i).toUInt8⟩⟩

/-- The union `ip46_address_t`. -/
structure Ip46 (α : Type) where
  ip4 : α → Ip4Address
  setIp4 : α → Ip4Address → α
  ip6 : α → Ip6Address
  setIp6 : α → Ip6Address → α
  setIp4_ip4 : ∀ ip, setIp4 ip (ip4 ip) = ip
  setIp6_ip6 : ∀ ip, setIp6 ip (ip6 ip) = ip

structure SessionEndpointCfg (α : Type) where
  ip : α
  port : UInt16
  isIp4 : Bool

/-- "%s://" of the format. -/
def Unformat.scheme (u : Unformat) (input : UnformatInput) : Option UnformatInput := do
  let (_, input) ← u.string colon (u.skip input)
  u.literal [colon, slash, slash] (u.skip input)

/-- "/%d" of the format. -/
def Unformat.port (u : Unformat) (input : UnformatInput) : Option (UInt32 × UnformatInput) := do
  let input ← u.literal [slash] (u.skip input)
  let (port, input) ← u.decimal (u.skip input)
  some (port, u.skip input)

/-- "%s://%U/%d": what the parser of the "%U" leaves in the address, and the
port if the whole format matches. -/
def Unformat.uri {α : Type} (u : Unformat)
    (parser : UnformatInput → α → Option (Unformatted α)) (input : UnformatInput) (ip : α) :
    Option (α × Option (UInt32 × UnformatInput)) :=
  match u.scheme input with
  | none => some (ip, none)
  | some start => do
      let out ← parser (u.skip start) ip
      if out.ret then some (out.result, u.port out.input) else some (out.result, none)

section

variable {α : Type}

def ip4Parser (u : Unformat) (m : Ip46 α) (input : UnformatInput) (ip : α) :
    Option (Unformatted α) :=
  let out := unformatIp4Address u input (m.ip4 ip)
  some ⟨out.ret, out.input, m.setIp4 ip out.result⟩

def ip6Parser (host : ByteOrder) (m : Ip46 α) (input : UnformatInput) (ip : α) :
    Option (Unformatted α) := do
  let out ← unformatIp6Address host input (m.ip6 ip)
  some ⟨out.ret, out.input, m.setIp6 ip out.result⟩

def unformatUri (u : Unformat) (m : Ip46 α) (host : ByteOrder) (input : UnformatInput)
    (sep : SessionEndpointCfg α) : Option (Unformatted (SessionEndpointCfg α)) := do
  match ← u.uri (ip4Parser u m) input sep.ip with
  | (ip, some (port, input)) =>
      some ⟨true, input, ⟨ip, clibHostToNetU16 port.toUInt16 host, true⟩⟩
  | (ip, none) =>
      match ← u.uri (ip6Parser host m) input ip with
      | (ip, some (port, input)) =>
          some ⟨true, input, ⟨ip, clibHostToNetU16 port.toUInt16 host, false⟩⟩
      | (ip, none) => some ⟨false, input, { sep with ip := ip }⟩

end

/-- A number of an IPv4 address. -/
structure Octet where
  digits : List UInt8
  ne_nil : digits ≠ []
  isDigit_of_mem : ∀ c ∈ digits, isDigit c = true
  lt : decimalNat digits < 256

def dotted (a b c d : List UInt8) : List UInt8 := a ++ dot :: (b ++ dot :: (c ++ dot :: d))

structure Ip4Text where
  a : Octet
  b : Octet
  c : Octet
  d : Octet

def Ip4Text.text (t : Ip4Text) : List UInt8 := dotted t.a.digits t.b.digits t.c.digits t.d.digits

def IsAddress (text : List UInt8) : Prop :=
  (∃ t : Ip4Text, t.text = text) ∨ ∃ t : Ip6Text, t.text = text

/-- A name, "://", an address, "/" and a number of 16 bits, and the port that
is this number in network byte order. -/
def WellFormed (host : ByteOrder) (rest : List UInt8) (port : UInt16) : Prop :=
  ∃ (name address : List UInt8) (number : Decimal) (left : List UInt8) (n : Nat),
    rest = name ++ colon :: slash :: slash :: (address ++ slash :: (number.text ++ left)) ∧
      colon ∉ name ∧ IsAddress address ∧ NumberEnds left ∧ number.value = n ∧ n < 65536 ∧
      host.bytes port = ByteOrder.big.bytes (UInt16.ofNat n)

/-- What follows the first "://". -/
def afterScheme (rest : List UInt8) : List UInt8 := (rest.dropWhile (· != colon)).drop 3

def addressOf (rest : List UInt8) : List UInt8 := (afterScheme rest).takeWhile (· != slash)

def numberOf (rest : List UInt8) : List UInt8 :=
  ((afterScheme rest).dropWhile (· != slash)).tail

/-- The signed number at the start of a text. -/
def leadingInt : List UInt8 → Int
  | [] => 0
  | c :: rest =>
      if c = minusSign then -(decimalNat (rest.takeWhile isDigit) : Int)
      else if c = plusSign then decimalNat (rest.takeWhile isDigit)
      else decimalNat ((c :: rest).takeWhile isDigit)

def isDot (c : UInt8) : Bool := c == dot

/-- No sign, and no number above 255. -/
def PlainIp4 (address : List UInt8) : Prop :=
  plusSign ∉ address ∧ minusSign ∉ address ∧
    ∀ digits ∈ words isDot address, decimalNat digits < 256

/-- What the code takes on trust: that the number is one of 16 bits, that the
address is written as it should be, and that no white space is skipped. -/
def PlainUri (rest : List UInt8) : Prop :=
  (∀ c ∈ addressOf rest, isWhiteSpace c = false) ∧
    (∀ c ∈ (numberOf rest).head?, isWhiteSpace c = false) ∧
    (if colon ∈ addressOf rest then Regular (addressOf rest) else PlainIp4 (addressOf rest)) ∧
    0 ≤ leadingInt (numberOf rest) ∧ leadingInt (numberOf rest) < 65536

instance (address : List UInt8) : Decidable (PlainIp4 address) :=
  inferInstanceAs (Decidable (plusSign ∉ address ∧ minusSign ∉ address ∧
    ∀ digits ∈ words isDot address, decimalNat digits < 256))

instance (rest : List UInt8) : Decidable (PlainUri rest) :=
  inferInstanceAs (Decidable ((∀ c ∈ addressOf rest, isWhiteSpace c = false) ∧
    (∀ c ∈ (numberOf rest).head?, isWhiteSpace c = false) ∧
    (if colon ∈ addressOf rest then Regular (addressOf rest) else PlainIp4 (addressOf rest)) ∧
    0 ≤ leadingInt (numberOf rest) ∧ leadingInt (numberOf rest) < 65536))

/-- The number in front of a text is that of the decimal written there. -/
theorem leadingInt_text (d : Decimal) {left : List UInt8} (h : NumberEnds left) :
    leadingInt (d.text ++ left) = d.value := by
  have hTake : (d.digits ++ left).takeWhile isDigit = d.digits := by
    rw [List.takeWhile_append_of_pos d.isDigit_of_mem]
    cases left with
    | nil => simp
    | cons c left => simp [h c rfl]
  obtain ⟨sign, digits, ne_nil, hDigits⟩ := d
  have hSigns : plusSign ≠ minusSign := by decide
  cases sign with
  | plus =>
      show leadingInt (plusSign :: (digits ++ left)) = _
      rw [leadingInt, if_neg hSigns, if_pos rfl, hTake]
      rfl
  | minus =>
      show leadingInt (minusSign :: (digits ++ left)) = _
      rw [leadingInt, if_pos rfl, hTake]
      rfl
  | none =>
      obtain ⟨c, digits, rfl⟩ := List.exists_cons_of_ne_nil ne_nil
      have hDigit : isDigit c = true := hDigits c List.mem_cons_self
      have hMinus : c ≠ minusSign := by
        rintro rfl
        exact absurd hDigit (by decide)
      have hPlus : c ≠ plusSign := by
        rintro rfl
        exact absurd hDigit (by decide)
      show leadingInt (c :: (digits ++ left)) = _
      rw [leadingInt, if_neg hMinus, if_neg hPlus, ← List.cons_append, hTake]
      rfl

/-- The text after the scheme begins behind the first `://`. -/
theorem afterScheme_append {name : List UInt8} (h : colon ∉ name) (tail : List UInt8) :
    afterScheme (name ++ colon :: slash :: slash :: tail) = tail := by
  have hName : ∀ c ∈ name, (c != colon) = true := fun c hc =>
    bne_iff_ne.mpr fun hColon => h (hColon ▸ hc)
  rw [afterScheme, List.dropWhile_append_of_pos hName]
  rfl

/-- The address ends at the slash behind it. -/
theorem addressOf_append {name address : List UInt8} (hName : colon ∉ name)
    (hAddress : slash ∉ address) (tail : List UInt8) :
    addressOf (name ++ colon :: slash :: slash :: (address ++ slash :: tail)) = address := by
  have hPlain : ∀ c ∈ address, (c != slash) = true := fun c hc =>
    bne_iff_ne.mpr fun hSlash => hAddress (hSlash ▸ hc)
  rw [addressOf, afterScheme_append hName, List.takeWhile_append_of_pos hPlain]
  exact List.append_nil address

theorem numberOf_append {name address : List UInt8} (hName : colon ∉ name)
    (hAddress : slash ∉ address) (tail : List UInt8) :
    numberOf (name ++ colon :: slash :: slash :: (address ++ slash :: tail)) = tail := by
  have hPlain : ∀ c ∈ address, (c != slash) = true := fun c hc =>
    bne_iff_ne.mpr fun hSlash => hAddress (hSlash ▸ hc)
  rw [numberOf, afterScheme_append hName, List.dropWhile_append_of_pos hPlain]
  rfl

/-- What the pieces of a format take, without the white space. -/
def Reads (input input' : UnformatInput) (token : List UInt8) : Prop :=
  ∃ text, input.rest = text ++ input'.rest ∧ text.filter (fun c => !isWhiteSpace c) = token

/-- Only blanks are left out of a token. -/
theorem filter_blanks {blanks : List UInt8} (h : ∀ c ∈ blanks, isWhiteSpace c = true) :
    blanks.filter (fun c => !isWhiteSpace c) = [] := by
  rw [List.filter_eq_nil_iff]
  intro c hc
  simp [h c hc]

theorem filter_solid {text : List UInt8} (h : Solid isWhiteSpace text) :
    text.filter (fun c => !isWhiteSpace c) = text := by
  rw [List.filter_eq_self]
  intro c hc
  simp [h c hc]

namespace Reads

variable {input input' input'' : UnformatInput} {token token' : List UInt8}

/-- What is read in two parts is read in one. -/
theorem trans (h : Reads input input' token) (h' : Reads input' input'' token') :
    Reads input input'' (token ++ token') := by
  obtain ⟨text, hText, rfl⟩ := h
  obtain ⟨text', hText', rfl⟩ := h'
  exact ⟨text ++ text', by rw [hText, hText', List.append_assoc], List.filter_append ..⟩

theorem of_solid (h : input.rest = token ++ input'.rest) (hSolid : Solid isWhiteSpace token) :
    Reads input input' token := ⟨token, h, filter_solid hSolid⟩

theorem skip {u : Unformat} (hu : u.Documented) (input : UnformatInput) :
    Reads input (u.skip input) [] := by
  obtain ⟨blanks, hBlanks, hRest⟩ := hu.skip input
  exact ⟨blanks, hRest, filter_blanks hBlanks⟩

/-- A piece after what is skipped in front of it. -/
theorem skip_trans {u : Unformat} (hu : u.Documented)
    (h : Reads (u.skip input) input' token) : Reads input input' token := (skip hu input).trans h

end Reads

/-- The characters a number or an address is read from. -/
def isAddressChar (c : UInt8) : Bool :=
  hexDigitOf c < 16 || c == colon || c == dot || c == plusSign || c == minusSign

/-- A hex digit may stand in an address. -/
theorem isAddressChar_of_hex {c : UInt8} (h : hexDigitOf c < 16) : isAddressChar c = true := by
  simp [isAddressChar, h]

theorem isAddressChar_of_isDigit {c : UInt8} (h : isDigit c = true) : isAddressChar c = true := by
  have hRange : '0'.toUInt8 ≤ c ∧ c ≤ '9'.toUInt8 := by simpa [isDigit] using h
  refine isAddressChar_of_hex ?_
  rw [hexDigitOf, if_pos hRange]
  have hHigh : c.toNat ≤ 57 := UInt8.le_iff_toNat_le.mp hRange.2
  show c.toNat - 48 < 16
  omega

theorem ne_of_isAddressChar {c d : UInt8} (hc : isAddressChar c = true)
    (hd : isAddressChar d = false) : c ≠ d := by
  rintro rfl
  exact Bool.true_eq_false_eq_False (hc.symm.trans hd)

theorem ne_of_isDigit {c d : UInt8} (hc : isDigit c = true) (hd : isDigit d = false) :
    c ≠ d := by
  rintro rfl
  exact Bool.true_eq_false_eq_False (hc.symm.trans hd)

/-- Address characters only. -/
def InAddress (text : List UInt8) : Prop := ∀ c ∈ text, isAddressChar c = true

/-- No blank stands in an address. -/
theorem InAddress.solid {text : List UInt8} (h : InAddress text) : Solid isWhiteSpace text := by
  intro c hc
  have hChar := h c hc
  simp [isWhiteSpace, ne_of_isAddressChar hChar (d := ' '.toUInt8) (by decide),
    ne_of_isAddressChar hChar (d := '\t'.toUInt8) (by decide),
    ne_of_isAddressChar hChar (d := '\n'.toUInt8) (by decide),
    ne_of_isAddressChar hChar (d := '\r'.toUInt8) (by decide)]

theorem InAddress.slash_not_mem {text : List UInt8} (h : InAddress text) : slash ∉ text :=
  fun hSlash => ne_of_isAddressChar (h slash hSlash) (by decide) rfl

/-- A decimal may be part of an address. -/
theorem Decimal.inAddress (d : Decimal) : InAddress d.text := by
  intro c hc
  rcases List.mem_append.mp hc with hSign | hDigit
  · revert hSign
    cases d.sign with
    | none => exact fun hSign => absurd hSign List.not_mem_nil
    | plus => exact fun hSign => List.mem_singleton.mp hSign ▸ by decide
    | minus => exact fun hSign => List.mem_singleton.mp hSign ▸ by decide
  · exact isAddressChar_of_isDigit (d.isDigit_of_mem c hDigit)

def ReadAsIp4 (text : List UInt8) : Prop :=
  ∃ a b c d : Decimal, dotted a.text b.text c.text d.text = text

def ReadAsIp6 (text : List UInt8) : Prop := ∃ p : Progress, p.Whole ∧ p.text = text

theorem mem_dotted {a b c d : List UInt8} {x : UInt8} :
    x ∈ dotted a b c d ↔ x = dot ∨ x ∈ a ∨ x ∈ b ∨ x ∈ c ∨ x ∈ d := by
  simp only [dotted, List.mem_append, List.mem_cons]
  tauto

/-- What is read as an IPv4 address has characters of one only. -/
theorem ReadAsIp4.inAddress {text : List UInt8} (h : ReadAsIp4 text) : InAddress text := by
  obtain ⟨a, b, c, d, rfl⟩ := h
  intro x hx
  rcases mem_dotted.mp hx with rfl | hx | hx | hx | hx
  · decide
  · exact a.inAddress x hx
  · exact b.inAddress x hx
  · exact c.inAddress x hx
  · exact d.inAddress x hx

theorem Decimal.colon_not_mem (d : Decimal) : colon ∉ d.text := by
  intro hc
  rcases List.mem_append.mp hc with hSign | hDigit
  · revert hSign
    cases d.sign <;> decide
  · exact ne_of_isDigit (d.isDigit_of_mem colon hDigit) (by decide) rfl

/-- There is no colon in what is read as an IPv4 address. -/
theorem ReadAsIp4.colon_not_mem {text : List UInt8} (h : ReadAsIp4 text) : colon ∉ text := by
  obtain ⟨a, b, c, d, rfl⟩ := h
  rw [mem_dotted]
  simp [a.colon_not_mem, b.colon_not_mem, c.colon_not_mem, d.colon_not_mem,
    show colon ≠ dot from by decide]

theorem ReadAsIp4.dot_mem {text : List UInt8} (h : ReadAsIp4 text) : dot ∈ text := by
  obtain ⟨a, b, c, d, rfl⟩ := h
  exact mem_dotted.mpr (.inl rfl)

theorem HexGroup.of_mem_ended {groups : List HexGroup} {c : UInt8} (h : c ∈ ended groups) :
    hexDigitOf c < 16 ∨ c = colon := by
  obtain ⟨g, -, hc⟩ := List.mem_flatMap.mp h
  rcases List.mem_append.mp hc with hDigit | hColon
  · obtain ⟨d, -, rfl⟩ := List.mem_map.mp hDigit
    rw [hexDigitOf_char]
    exact .inl d.value.isLt
  · exact .inr (List.mem_singleton.mp hColon)

/-- What is read as an IPv6 address has characters of one only. -/
theorem ReadAsIp6.inAddress {text : List UInt8} (h : ReadAsIp6 text) : InAddress text := by
  obtain ⟨p, -, rfl⟩ := h
  have hColon : isAddressChar colon = true := by decide
  intro c hc
  have hCases : hexDigitOf c < 16 ∨ c = colon := by
    simp only [Progress.text, List.mem_append] at hc
    rcases hc with ((hLead | hBefore) | hDouble) | hDigit
    · split at hLead
      · exact .inr (List.mem_singleton.mp hLead)
      · exact absurd hLead List.not_mem_nil
    · exact HexGroup.of_mem_ended hBefore
    · split at hDouble
      · rcases List.mem_cons.mp hDouble with hHere | hAfter
        · exact .inr hHere
        · exact HexGroup.of_mem_ended hAfter
      · exact absurd hDouble List.not_mem_nil
    · obtain ⟨d, -, rfl⟩ := List.mem_map.mp hDigit
      rw [hexDigitOf_char]
      exact .inl d.value.isLt
  rcases hCases with hHex | rfl
  · exact isAddressChar_of_hex hHex
  · exact hColon

theorem ReadAsIp6.colon_mem {text : List UInt8} (h : ReadAsIp6 text) : colon ∈ text := by
  obtain ⟨p, hWhole, rfl⟩ := h
  rcases Bool.eq_false_or_eq_true p.double with hDouble | hDouble
  · simp [Progress.text, hDouble]
  · have hEight := hWhole.resolve_left (by rw [hDouble]; exact Bool.false_ne_true)
    have hBefore : p.before ≠ [] := by
      intro hNil
      have hNone : p.groups = [] := by rw [Progress.groups, hNil, p.after_eq hDouble]; rfl
      by_cases hDigits : p.digits = []
      · rw [Progress.finish_of_nil hDigits, hNone] at hEight
        exact absurd hEight (by simp)
      · rw [Progress.finish_of_digits hDigits, Progress.groups_close, hNone] at hEight
        exact absurd hEight (by simp)
    obtain ⟨g, groups, hGroups⟩ := List.exists_cons_of_ne_nil hBefore
    simp [Progress.text, hGroups, HexGroup.ended]

section

variable {u : Unformat} (hu : u.Documented)

include hu

/-- `%d` reads a decimal behind white space. -/
theorem reads_decimal {input input' : UnformatInput} {x : UInt32}
    (h : u.decimal (u.skip input) = some (x, input')) :
    ∃ d : Decimal, Reads input input' d.text := by
  obtain ⟨d, hRest, -, -⟩ := hu.decimal _ _ _ h
  exact ⟨d, .skip_trans hu (.of_solid hRest d.inAddress.solid)⟩

theorem reads_dot {input input' : UnformatInput}
    (h : u.literal [dot] (u.skip input) = some input') : Reads input input' [dot] :=
  .skip_trans hu (.of_solid (hu.literal _ _ _ h) (by decide))

/-- What the parser of IPv4 addresses takes when it returns 1. -/
theorem unformatIp4Address_reads {input : UnformatInput} {result : Ip4Address}
    (hOne : (unformatIp4Address u input result).ret = true) :
    ∃ address, ReadAsIp4 address ∧
      Reads input (unformatIp4Address u input result).input address := by
  rw [unformatIp4Address] at hOne ⊢
  cases hFour : u.fourDecimals input with
  | none => simp [hFour] at hOne
  | some found =>
      obtain ⟨numbers, next⟩ := found
      have hNext : (if 256 ≤ numbers 0 ∨ 256 ≤ numbers 1 ∨ 256 ≤ numbers 2 ∨ 256 ≤ numbers 3 then
          (⟨false, next, result⟩ : Unformatted Ip4Address)
          else ⟨true, next, ⟨fun i => (numbers i).toUInt8⟩⟩).input = next := by
        split <;> rfl
      simp only [hNext]
      simp only [Unformat.fourDecimals, Option.bind_eq_bind, Option.bind_eq_some_iff, Prod.exists,
        Option.some.injEq, Prod.mk.injEq] at hFour
      obtain ⟨_, i₁, h₁, i₂, h₂, _, i₃, h₃, i₄, h₄, _, i₅, h₅, i₆, h₆, _, i₇, h₇, -, rfl⟩ := hFour
      obtain ⟨a, ha⟩ := reads_decimal hu h₁
      obtain ⟨b, hb⟩ := reads_decimal hu h₃
      obtain ⟨c, hc⟩ := reads_decimal hu h₅
      obtain ⟨d, hd⟩ := reads_decimal hu h₇
      refine ⟨dotted a.text b.text c.text d.text, ⟨a, b, c, d, rfl⟩, ?_⟩
      have hAll := ha.trans ((reads_dot hu h₂).trans (hb.trans ((reads_dot hu h₄).trans
        (hc.trans ((reads_dot hu h₆).trans (hd.trans (.skip hu i₇)))))))
      simpa [dotted] using hAll

end

/-- A parser that returns 0 stores nothing. -/
theorem unformatIp4Address_result {u : Unformat} {input : UnformatInput} {result : Ip4Address}
    (hZero : (unformatIp4Address u input result).ret = false) :
    (unformatIp4Address u input result).result = result := by
  rw [unformatIp4Address] at hZero ⊢
  split at hZero
  · rfl
  · split at hZero
    · rename_i hRange
      simp [hRange]
    · exact absurd hZero Bool.true_eq_false_eq_False

/-- What the parser of IPv6 addresses takes when it returns 1. -/
theorem unformatIp6Address_reads {host : ByteOrder} {input : UnformatInput} {result : Ip6Address}
    {out : Unformatted Ip6Address} (hRun : unformatIp6Address host input result = some out)
    (hOne : out.ret = true) :
    ReadAsIp6 (addressPart 0 input.rest) ∧
      Reads input out.input (addressPart 0 input.rest) := by
  obtain ⟨out', hSpec, hCases⟩ := unformatIp6Address_spec host input result
  obtain rfl : out' = out := Option.some.inj (hSpec.symm.trans hRun)
  rcases hCases with ⟨hZero, -⟩ | ⟨-, p, hWhole, hPart, hRest, -, -⟩
  · exact absurd (hZero.symm.trans hOne) Bool.false_ne_true
  · have hRead : ReadAsIp6 (addressPart 0 input.rest) := ⟨p, hWhole, hPart⟩
    exact ⟨hRead, .of_solid (hPart ▸ hRest) hRead.inAddress.solid⟩

/-- The address part ends before a character that is neither digit nor colon.
-/
theorem colon_not_mem_addressPart {c : UInt8} (hHex : ¬ hexDigitOf c < 16) (hColon : c ≠ colon)
    {first : List UInt8} (hFirst : colon ∉ first) (rest : List UInt8) (nColon : Nat) :
    colon ∉ addressPart nColon (first ++ c :: rest) := by
  induction first generalizing nColon with
  | nil =>
      rw [List.nil_append, addressPart, if_neg hHex, if_neg (fun h => hColon h.1)]
      exact List.not_mem_nil
  | cons d first ih =>
      rw [List.mem_cons, not_or] at hFirst
      have hOther : ¬ (d = colon ∧ nColon < 2) := fun h => hFirst.1 h.1.symm
      rw [List.cons_append, addressPart, if_neg hOther]
      split
      · rw [List.mem_cons, not_or]
        exact ⟨hFirst.1, ih hFirst.2 0⟩
      · exact List.not_mem_nil

/-- No text is read by both parsers. -/
theorem ret_unformatIp6Address {input input' : UnformatInput} {address : List UInt8}
    (hAddress : ReadAsIp4 address) (hReads : Reads input input' address) (host : ByteOrder)
    (result : Ip6Address) :
    ∃ out, unformatIp6Address host input result = some out ∧ out.ret = false ∧
      out.result = result := by
  obtain ⟨out, hRun, hCases⟩ := unformatIp6Address_spec host input result
  refine ⟨out, hRun, ?_⟩
  rcases hCases with hZero | ⟨hOne, -⟩
  · exact hZero
  · refine absurd (unformatIp6Address_reads hRun hOne).1.colon_mem ?_
    obtain ⟨text, hRest, rfl⟩ := hReads
    have hColon : colon ∉ text := fun hMem =>
      hAddress.colon_not_mem (List.mem_filter.mpr ⟨hMem, by decide⟩)
    obtain ⟨first, rest, rfl⟩ := List.append_of_mem (List.mem_filter.mp hAddress.dot_mem).1
    rw [hRest, List.append_assoc]
    exact colon_not_mem_addressPart (by decide) (by decide)
      (fun hMem => hColon (List.mem_append_left _ hMem)) _ 0

namespace Octet

/-- A decimal without a sign and below 256 is an octet. -/
theorem exists_digits {d : Decimal} (hPlus : plusSign ∉ d.text) (hMinus : minusSign ∉ d.text)
    (hLt : decimalNat d.text < 256) : ∃ o : Octet, o.digits = d.text := by
  obtain ⟨sign, digits, ne_nil, hDigits⟩ := d
  cases sign with
  | none => exact ⟨⟨digits, ne_nil, hDigits, hLt⟩, rfl⟩
  | plus => exact absurd List.mem_cons_self hPlus
  | minus => exact absurd List.mem_cons_self hMinus

def decimal (o : Octet) : Decimal := ⟨.none, o.digits, o.ne_nil, o.isDigit_of_mem⟩

theorem not_mem (o : Octet) {c : UInt8} (h : isDigit c = false) : c ∉ o.digits :=
  fun hc => ne_of_isDigit (o.isDigit_of_mem c hc) h rfl

end Octet

theorem solid_isDot {text : List UInt8} (h : dot ∉ text) : Solid isDot text :=
  fun _ hc => beq_eq_false_iff_ne.mpr fun hDot => h (hDot ▸ hc)

/-- A dotted text has its four parts as words. -/
theorem words_dotted {a b c d : List UInt8} (ha : a ≠ []) (hb : b ≠ []) (hc : c ≠ [])
    (hd : d ≠ []) (ha' : dot ∉ a) (hb' : dot ∉ b) (hc' : dot ∉ c) (hd' : dot ∉ d) :
    words isDot (dotted a b c d) = [a, b, c, d] := by
  have hDot : isDot dot = true := beq_self_eq_true dot
  rw [dotted, words_append_cons _ _ hDot, words_append_cons _ _ hDot,
    words_append_cons _ _ hDot, words_of_solid (solid_isDot ha') ha,
    words_of_solid (solid_isDot hb') hb, words_of_solid (solid_isDot hc') hc,
    words_of_solid (solid_isDot hd') hd]
  rfl

theorem Decimal.text_ne_nil (d : Decimal) : d.text ≠ [] :=
  List.append_ne_nil_of_right_ne_nil _ d.ne_nil

theorem Decimal.dot_not_mem (d : Decimal) : dot ∉ d.text := by
  intro hc
  rcases List.mem_append.mp hc with hSign | hDigit
  · revert hSign
    cases d.sign <;> decide
  · exact ne_of_isDigit (d.isDigit_of_mem dot hDigit) (by decide) rfl

/-- A plain text that is read as an IPv4 address is one. -/
theorem ReadAsIp4.exists_text {text : List UInt8} (h : ReadAsIp4 text) (hPlain : PlainIp4 text) :
    ∃ t : Ip4Text, t.text = text := by
  obtain ⟨a, b, c, d, rfl⟩ := h
  obtain ⟨hPlus, hMinus, hLt⟩ := hPlain
  rw [words_dotted a.text_ne_nil b.text_ne_nil c.text_ne_nil d.text_ne_nil a.dot_not_mem
    b.dot_not_mem c.dot_not_mem d.dot_not_mem] at hLt
  simp only [mem_dotted, not_or] at hPlus hMinus
  simp only [List.mem_cons, forall_eq_or_imp, List.not_mem_nil, false_implies, implies_true,
    and_true] at hLt
  obtain ⟨-, hPlusA, hPlusB, hPlusC, hPlusD⟩ := hPlus
  obtain ⟨-, hMinusA, hMinusB, hMinusC, hMinusD⟩ := hMinus
  obtain ⟨a', ha⟩ := Octet.exists_digits hPlusA hMinusA hLt.1
  obtain ⟨b', hb⟩ := Octet.exists_digits hPlusB hMinusB hLt.2.1
  obtain ⟨c', hc⟩ := Octet.exists_digits hPlusC hMinusC hLt.2.2.1
  obtain ⟨d', hd⟩ := Octet.exists_digits hPlusD hMinusD hLt.2.2.2
  exact ⟨⟨a', b', c', d'⟩, by rw [Ip4Text.text, ha, hb, hc, hd]⟩

theorem Ip4Text.readAsIp4 (t : Ip4Text) : ReadAsIp4 t.text :=
  ⟨t.a.decimal, t.b.decimal, t.c.decimal, t.d.decimal, rfl⟩

theorem Ip4Text.plain (t : Ip4Text) : PlainIp4 t.text := by
  refine ⟨?_, ?_, ?_⟩
  · rw [Ip4Text.text, mem_dotted]
    simp [Octet.not_mem, show isDigit plusSign = false from by decide,
      show plusSign ≠ dot from by decide]
  · rw [Ip4Text.text, mem_dotted]
    simp [Octet.not_mem, show isDigit minusSign = false from by decide,
      show minusSign ≠ dot from by decide]
  · have hDot : isDigit dot = false := by decide
    rw [Ip4Text.text, words_dotted t.a.ne_nil t.b.ne_nil t.c.ne_nil t.d.ne_nil
      (t.a.not_mem hDot) (t.b.not_mem hDot) (t.c.not_mem hDot) (t.d.not_mem hDot)]
    simp [t.a.lt, t.b.lt, t.c.lt, t.d.lt]

/-- The parser reads every text of an address. -/
theorem Ip6Text.readAsIp6 (t : Ip6Text) : ReadAsIp6 t.text := by
  have hEnds : Ends [] := fun _ hc => absurd hc (by simp)
  have hTaken : ∃ address, unformatIp6Address .big ⟨[], t.text ++ []⟩ ⟨fun _ => 0⟩ =
      some ⟨true, ⟨t.text.reverse ++ [], []⟩, address⟩ := by
    cases t with
    | full groups eight =>
        obtain ⟨address, hRun, -⟩ := unformatIp6Address_full .big eight [] ⟨fun _ => 0⟩ hEnds
        exact ⟨address, hRun⟩
    | compressed before after short =>
        obtain ⟨address, hRun, -⟩ := unformatIp6Address_compressed .big short [] ⟨fun _ => 0⟩ hEnds
        exact ⟨address, hRun⟩
  obtain ⟨address, hRun⟩ := hTaken
  obtain ⟨out, hSpec, hCases⟩ := unformatIp6Address_spec .big ⟨[], t.text ++ []⟩ ⟨fun _ => 0⟩
  obtain rfl := Option.some.inj (hRun.symm.trans hSpec)
  rcases hCases with ⟨hZero, -⟩ | ⟨-, p, hWhole, -, hRest, -, -⟩
  · exact absurd hZero Bool.true_eq_false_eq_False
  · exact ⟨p, hWhole, (List.append_cancel_right hRest).symm⟩

/-- Every address is read as one of the two kinds. -/
theorem IsAddress.read {text : List UInt8} (h : IsAddress text) :
    ReadAsIp4 text ∨ ReadAsIp6 text := by
  rcases h with ⟨t, rfl⟩ | ⟨t, rfl⟩
  · exact .inl t.readAsIp4
  · exact .inr t.readAsIp6

/-- Of what the parsers read, the texts of addresses. -/
theorem isAddress_iff {text : List UInt8} (h : ReadAsIp4 text ∨ ReadAsIp6 text) :
    IsAddress text ↔ if colon ∈ text then Regular text else PlainIp4 text := by
  rcases h with hIp4 | hIp6
  · have hColon := hIp4.colon_not_mem
    rw [if_neg hColon]
    constructor
    · rintro (⟨t, rfl⟩ | ⟨t, rfl⟩)
      · exact t.plain
      · exact absurd t.readAsIp6.colon_mem hColon
    · exact fun hPlain => .inl (hIp4.exists_text hPlain)
  · have hColon := hIp6.colon_mem
    rw [if_pos hColon]
    constructor
    · rintro (⟨t, rfl⟩ | ⟨t, rfl⟩)
      · exact absurd hColon t.readAsIp4.colon_not_mem
      · exact t.regular
    · intro hRegular
      obtain ⟨p, hWhole, rfl⟩ := hIp6
      obtain ⟨t, hText, -⟩ := p.exists_text hWhole hRegular
      exact .inr ⟨t, hText⟩

/-- A URI that the format matches, with the white space it skips. -/
structure Matched (rest : List UInt8) (port : UInt32) where
  name : List UInt8
  text : List UInt8
  gap : List UInt8
  number : Decimal
  left : List UInt8
  rest_eq : rest = name ++ colon :: slash :: slash :: (text ++ slash :: (gap ++
    (number.text ++ left)))
  name_colon : colon ∉ name
  text_slash : slash ∉ text
  address : ReadAsIp4 (text.filter fun c => !isWhiteSpace c) ∨
    ReadAsIp6 (text.filter fun c => !isWhiteSpace c)
  gap_blank : ∀ c ∈ gap, isWhiteSpace c = true
  ends : NumberEnds left
  port_eq : port = UInt32.ofInt number.value

/-- A decimal does not start with a blank. -/
theorem Decimal.head_text (d : Decimal) (left : List UInt8) :
    ∃ c, (d.text ++ left).head? = some c ∧ isWhiteSpace c = false := by
  obtain ⟨c, rest, hText⟩ := List.exists_cons_of_ne_nil d.text_ne_nil
  refine ⟨c, by rw [hText]; rfl, d.inAddress.solid c ?_⟩
  rw [hText]
  exact List.mem_cons_self

/-- Nothing in a well-formed URI is taken on trust. -/
theorem WellFormed.plainUri {host : ByteOrder} {rest : List UInt8} {port : UInt16}
    (h : WellFormed host rest port) : PlainUri rest := by
  obtain ⟨name, address, number, left, n, rfl, hName, hAddress, hEnds, hValue, hLt, -⟩ := h
  have hIn : InAddress address := hAddress.read.elim ReadAsIp4.inAddress ReadAsIp6.inAddress
  have hSlash := hIn.slash_not_mem
  rw [PlainUri, addressOf_append hName hSlash, numberOf_append hName hSlash,
    leadingInt_text number hEnds, hValue]
  refine ⟨hIn.solid, ?_, (isAddress_iff hAddress.read).mp hAddress, by omega, by omega⟩
  obtain ⟨c, hHead, hSolid⟩ := number.head_text left
  intro c' hc'
  obtain rfl : c = c' := Option.some.inj (hHead.symm.trans hc')
  exact hSolid

/-- Where the format matches, the URI is well formed unless it is one of those
the code takes on trust. -/
theorem Matched.wellFormed_iff {rest : List UInt8} {port : UInt32} (m : Matched rest port)
    (host : ByteOrder) :
    WellFormed host rest (clibHostToNetU16 port.toUInt16 host) ↔ PlainUri rest := by
  constructor
  · exact WellFormed.plainUri
  · intro hPlain
    rw [m.rest_eq, PlainUri, addressOf_append m.name_colon m.text_slash,
      numberOf_append m.name_colon m.text_slash] at hPlain
    obtain ⟨hSolid, hHead, hAddress, hLow, hHigh⟩ := hPlain
    have hText : m.text.filter (fun c => !isWhiteSpace c) = m.text := filter_solid hSolid
    have hGap : m.gap = [] := by
      rcases hNil : m.gap with _ | ⟨c, gap⟩
      · rfl
      · have hBlank := m.gap_blank c (hNil ▸ List.mem_cons_self)
        rw [hNil] at hHead
        exact absurd (hBlank.symm.trans (hHead c rfl)) Bool.true_eq_false_eq_False
    rw [hGap, List.nil_append, leadingInt_text m.number m.ends] at hLow hHigh
    have hRead := m.address
    rw [hText] at hRead
    obtain ⟨n, hn⟩ := Int.eq_ofNat_of_zero_le hLow
    refine ⟨m.name, m.text, m.number, m.left, n, ?_, m.name_colon, (isAddress_iff hRead).mpr hAddress,
      m.ends, hn, by omega, ?_⟩
    · have hRest := m.rest_eq
      rwa [hGap, List.nil_append] at hRest
    · have hLow : ((n : Int) % 2 ^ 32).toNat = n := by omega
      rw [bytes_clibHostToNetU16, m.port_eq, hn, UInt32.ofInt, hLow, UInt32.toUInt16_ofNat']

theorem not_mem_of_blank {blanks : List UInt8} (h : ∀ c ∈ blanks, isWhiteSpace c = true)
    {c : UInt8} (hc : isWhiteSpace c = false) : c ∉ blanks :=
  fun hMem => Bool.true_eq_false_eq_False ((h c hMem).symm.trans hc)

/-- What the three calls read, they read off a URI. -/
theorem Unformat.Documented.matched {u : Unformat} (hu : u.Documented)
    {input start next input' : UnformatInput} {address : List UInt8} {port : UInt32}
    (hScheme : u.scheme input = some start) (hReads : Reads (u.skip start) next address)
    (hAddress : ReadAsIp4 address ∨ ReadAsIp6 address)
    (hPort : u.port next = some (port, input')) : Nonempty (Matched input.rest port) := by
  simp only [Unformat.scheme, Option.bind_eq_bind, Option.bind_eq_some_iff, Prod.exists] at hScheme
  obtain ⟨s, afterName, hString, hLiteral⟩ := hScheme
  simp only [Unformat.port, Option.bind_eq_bind, Option.bind_eq_some_iff, Prod.exists,
    Option.some.injEq, Prod.mk.injEq] at hPort
  obtain ⟨afterSlash, hSlash, _, last, hNumber, rfl, -⟩ := hPort
  -- the pieces in the order in which they are read
  obtain ⟨b₀, hBlank₀, hRest₀⟩ := hu.skip input
  obtain ⟨name, hName, hRest₁⟩ := hu.string _ _ _ _ hString
  obtain ⟨b₁, hBlank₁, hRest₂⟩ := hu.skip afterName
  have hRest₃ := hu.literal _ _ _ hLiteral
  obtain ⟨text, hRest₄, hText⟩ := Reads.skip_trans hu hReads
  obtain ⟨b₂, hBlank₂, hRest₅⟩ := hu.skip next
  have hRest₆ := hu.literal _ _ _ hSlash
  obtain ⟨gap, hGap, hRest₇⟩ := hu.skip afterSlash
  obtain ⟨number, hRest₈, hEnds, hValue⟩ := hu.decimal _ _ _ hNumber
  have hColon : colon ∉ b₀ ++ name ++ b₁ := by
    have hSolid : isWhiteSpace colon = false := by decide
    simp [not_mem_of_blank hBlank₀ hSolid, hName, not_mem_of_blank hBlank₁ hSolid]
  have hFilter : (text ++ b₂).filter (fun c => !isWhiteSpace c) = address := by
    rw [List.filter_append, filter_blanks hBlank₂, List.append_nil, hText]
  have hIn : InAddress address := hAddress.elim ReadAsIp4.inAddress ReadAsIp6.inAddress
  have hNoSlash : slash ∉ text ++ b₂ := fun hMem =>
    hIn.slash_not_mem (hFilter ▸ List.mem_filter.mpr ⟨hMem, by decide⟩)
  exact ⟨{
    name := b₀ ++ name ++ b₁
    text := text ++ b₂
    gap := gap
    number := number
    left := last.rest
    rest_eq := by
      rw [hRest₀, hRest₁, hRest₂, hRest₃, hRest₄, hRest₅, hRest₆, hRest₇, hRest₈]
      simp only [List.append_assoc, List.cons_append, List.nil_append]
    name_colon := hColon
    text_slash := hNoSlash
    address := by rwa [hFilter]
    gap_blank := hGap
    ends := hEnds
    port_eq := hValue }⟩

/-- The u16 that is in memory as two bytes. -/
def ByteOrder.word (first second : UInt8) : ByteOrder → UInt16
  | .little => first.toUInt16 ||| (second.toUInt16 <<< 8)
  | .big => second.toUInt16 ||| (first.toUInt16 <<< 8)

/-- The first and the second byte of a u16 in memory. -/
def ByteOrder.first (x : UInt16) : ByteOrder → UInt8
  | .little => x.toUInt8
  | .big => (x >>> 8).toUInt8

def ByteOrder.second (x : UInt16) : ByteOrder → UInt8
  | .little => (x >>> 8).toUInt8
  | .big => x.toUInt8

theorem toUInt16_or_shift (x : UInt16) :
    x.toUInt8.toUInt16 ||| ((x >>> 8).toUInt8.toUInt16 <<< 8) = x := by
  have hHigh : x.toNat / 256 < 256 := by have := x.toNat_lt; omega
  have hLow : x.toNat % 256 < 2 ^ 8 := Nat.mod_lt _ (by omega)
  have hShift : x.toNat / 256 * 256 % 65536 = x.toNat / 256 * 256 := by omega
  apply UInt16.toNat_inj.mp
  have hNat : (x.toUInt8.toUInt16 ||| ((x >>> 8).toUInt8.toUInt16 <<< 8)).toNat =
      x.toNat % 256 ||| (x.toNat / 256) <<< 8 := by
    simp [Nat.shiftRight_eq_div_pow, Nat.shiftLeft_eq, Nat.mod_eq_of_lt hHigh, hShift]
  rw [hNat, Nat.or_comm, ← Nat.shiftLeft_add_eq_or_of_lt hLow, Nat.shiftLeft_eq]
  omega

/-- A word is made of its two bytes again. -/
theorem ByteOrder.word_first_second (x : UInt16) (host : ByteOrder) :
    host.word (host.first x) (host.second x) = x := by
  cases host with
  | little => exact toUInt16_or_shift x
  | big => exact toUInt16_or_shift x

/-- Different words have different bytes. -/
theorem ByteOrder.bytes_injective (host : ByteOrder) {x y : UInt16}
    (h : host.bytes x = host.bytes y) : x = y := by
  have hBytes (x : UInt16) : host.bytes x = [host.first x, host.second x] := by cases host <;> rfl
  rw [hBytes, hBytes] at h
  obtain ⟨hFirst, hRest⟩ := List.cons_eq_cons.mp h
  obtain ⟨hSecond, -⟩ := List.cons_eq_cons.mp hRest
  rw [← host.word_first_second x, hFirst, hSecond, host.word_first_second]

/-- Words in memory are told apart by their bytes. -/
theorem ByteOrder.flatMap_bytes_injective (host : ByteOrder) {xs ys : List UInt16}
    (h : xs.flatMap host.bytes = ys.flatMap host.bytes) (hLength : xs.length = ys.length) :
    xs = ys := by
  induction xs generalizing ys with
  | nil => exact (List.length_eq_zero_iff.mp hLength.symm).symm
  | cons x xs ih =>
      cases ys with
      | nil => cases hLength
      | cons y ys =>
          have hTwo : (host.bytes x).length = (host.bytes y).length := by cases host <;> rfl
          rw [List.flatMap_cons, List.flatMap_cons] at h
          obtain ⟨hHere, hMore⟩ := List.append_inj h hTwo
          rw [host.bytes_injective hHere, ih hMore (Nat.succ.inj hLength)]

/-- An address is known by its bytes. -/
theorem Ip6Address.ext_asU8 {host : ByteOrder} {a b : Ip6Address} (h : a.asU8 host = b.asU8 host) :
    a = b := by
  have hWords := host.flatMap_bytes_injective h (by rw [List.length_ofFn, List.length_ofFn])
  obtain ⟨a⟩ := a
  obtain ⟨b⟩ := b
  exact congrArg _ (List.ofFn_injective hWords)

section

variable {α : Type}

/-- What the text after "://" is an address of is stored already: the numbers
that "%d.%d.%d.%d" finds there, all below 256, or the groups of the address part
of the text. -/
def StoresNothing (u : Unformat) (m : Ip46 α) (host : ByteOrder) (input : UnformatInput)
    (ip : α) : Prop :=
  ∀ start, u.scheme input = some start →
    (∀ numbers next, u.fourDecimals (u.skip start) = some (numbers, next) →
      (∀ i, numbers i < 256) → m.setIp4 ip ⟨fun i => (numbers i).toUInt8⟩ = ip) ∧
    ∀ (p : Progress) (address : Ip6Address), p.Whole →
      p.text = addressPart 0 (u.skip start).rest →
      address.asU8 host = p.finish.address.flatMap ByteOrder.big.bytes → m.setIp6 ip address = ip

/-- The parser of IPv4 addresses goes by the four numbers. -/
theorem unformatIp4Address_eq {u : Unformat} {input next : UnformatInput} {numbers : Fin 4 → UInt32}
    (hFour : u.fourDecimals input = some (numbers, next)) (result : Ip4Address) :
    unformatIp4Address u input result =
      if ∀ i, numbers i < 256 then ⟨true, next, ⟨fun i => (numbers i).toUInt8⟩⟩
      else ⟨false, next, result⟩ := by
  have hAll : (∀ i, numbers i < 256) ↔
      ¬ (256 ≤ numbers 0 ∨ 256 ≤ numbers 1 ∨ 256 ≤ numbers 2 ∨ 256 ≤ numbers 3) := by
    simp only [Fin.forall_fin_succ, not_or, UInt32.not_le]
    simp
  simp only [unformatIp4Address, hFour, hAll, ite_not]

/-- A parser that reads addresses, and stores nothing when it returns 0. -/
structure ReadsAddress (read : List UInt8 → Prop)
    (parser : UnformatInput → α → Option (Unformatted α)) : Prop where
  defined : ∀ input ip, ∃ out, parser input ip = some out
  reads : ∀ input ip out, parser input ip = some out → out.ret = true →
    ∃ address, read address ∧ Reads input out.input address
  stores : ∀ input ip out, parser input ip = some out → out.ret = false → out.result = ip

/-- The parser of IPv4 addresses reads them, or stores nothing. -/
theorem readsAddress_ip4Parser {u : Unformat} (hu : u.Documented) (m : Ip46 α) :
    ReadsAddress ReadAsIp4 (ip4Parser u m) where
  defined input ip := ⟨_, rfl⟩
  reads := by
    rintro input ip out ⟨⟩ hOne
    exact unformatIp4Address_reads hu hOne
  stores := by
    rintro input ip out ⟨⟩ hZero
    show m.setIp4 ip (unformatIp4Address u input (m.ip4 ip)).result = ip
    rw [unformatIp4Address_result hZero, m.setIp4_ip4]

/-- The parser of IPv6 addresses stores whatever it has found. -/
theorem ip6Parser_eq_some {host : ByteOrder} {m : Ip46 α} {input : UnformatInput} {ip : α}
    {out : Unformatted α} :
    ip6Parser host m input ip = some out ↔
      ∃ found, unformatIp6Address host input (m.ip6 ip) = some found ∧
        (⟨found.ret, found.input, m.setIp6 ip found.result⟩ : Unformatted α) = out := by
  simp only [ip6Parser, Option.bind_eq_bind, Option.bind_eq_some_iff, Option.some.injEq]

theorem readsAddress_ip6Parser (host : ByteOrder) (m : Ip46 α) :
    ReadsAddress ReadAsIp6 (ip6Parser host m) where
  defined input ip := by
    obtain ⟨found, hFound, -⟩ := unformatIp6Address_spec host input (m.ip6 ip)
    exact ⟨_, ip6Parser_eq_some.mpr ⟨found, hFound, rfl⟩⟩
  reads := by
    intro input ip out hRun hOne
    obtain ⟨found, hFound, rfl⟩ := ip6Parser_eq_some.mp hRun
    exact ⟨_, unformatIp6Address_reads hFound hOne⟩
  stores := by
    intro input ip out hRun hZero
    obtain ⟨found, hFound, rfl⟩ := ip6Parser_eq_some.mp hRun
    obtain ⟨found', hSpec, hCases⟩ := unformatIp6Address_spec host input (m.ip6 ip)
    obtain rfl : found' = found := Option.some.inj (hSpec.symm.trans hFound)
    rcases hCases with ⟨-, hResult⟩ | ⟨hOne, -⟩
    · show m.setIp6 ip found'.result = ip
      rw [hResult, m.setIp6_ip6]
    · exact absurd (hOne.symm.trans hZero) Bool.true_eq_false_eq_False

/-- What one of the two formats does: no "://", an address that is not
followed by a port, or a URI that matches. -/
theorem uri_cases {u : Unformat} (hu : u.Documented) {read : List UInt8 → Prop}
    {parser : UnformatInput → α → Option (Unformatted α)} (hParser : ReadsAddress read parser)
    (hRead : ∀ address, read address → ReadAsIp4 address ∨ ReadAsIp6 address)
    (input : UnformatInput) (ip : α) :
    ∃ ip' matched, u.uri parser input ip = some (ip', matched) ∧
      (∀ port input', matched = some (port, input') → Nonempty (Matched input.rest port)) ∧
      (u.scheme input = none ∧ ip' = ip ∨
        ∃ start out, u.scheme input = some start ∧ parser (u.skip start) ip = some out ∧
          ip' = out.result ∧ (out.ret = false → matched = none)) := by
  cases hScheme : u.scheme input with
  | none => exact ⟨ip, none, by rw [Unformat.uri, hScheme], by simp, .inl ⟨rfl, rfl⟩⟩
  | some start =>
      obtain ⟨out, hRun⟩ := hParser.defined (u.skip start) ip
      have hUri : u.uri parser input ip =
          if out.ret then some (out.result, u.port out.input) else some (out.result, none) := by
        rw [Unformat.uri, hScheme]
        show (parser (u.skip start) ip).bind _ = _
        rw [hRun]
        rfl
      cases hRet : out.ret with
      | false =>
          rw [hRet, if_neg Bool.false_ne_true] at hUri
          exact ⟨out.result, none, hUri, by simp, .inr ⟨start, out, rfl, hRun, rfl, fun _ => rfl⟩⟩
      | true =>
          rw [hRet, if_pos rfl] at hUri
          refine ⟨out.result, u.port out.input, hUri, ?_,
            .inr ⟨start, out, rfl, hRun, rfl, fun h => ?_⟩⟩
          · intro port input' hPort
            obtain ⟨address, hAddress, hReads⟩ := hParser.reads _ _ _ hRun hRet
            exact hu.matched hScheme hReads (hRead address hAddress) hPort
          · exact absurd (hRet.symm.trans h) Bool.true_eq_false_eq_False

/-- What the parsers store, on the text. -/
theorem storesNothing_iff {u : Unformat} {m : Ip46 α} {host : ByteOrder} {input start : UnformatInput}
    {ip : α} {out₁ out₂ : Unformatted α} (hScheme : u.scheme input = some start)
    (hRun₁ : ip4Parser u m (u.skip start) ip = some out₁)
    (hRun₂ : ip6Parser host m (u.skip start) ip = some out₂) :
    StoresNothing u m host input ip ↔
      (out₁.ret = true → out₁.result = ip) ∧ (out₂.ret = true → out₂.result = ip) := by
  obtain rfl := Option.some.inj hRun₁
  obtain ⟨found, hFound, rfl⟩ := ip6Parser_eq_some.mp hRun₂
  have hHere : StoresNothing u m host input ip ↔
      (∀ numbers next, u.fourDecimals (u.skip start) = some (numbers, next) →
        (∀ i, numbers i < 256) → m.setIp4 ip ⟨fun i => (numbers i).toUInt8⟩ = ip) ∧
      ∀ (p : Progress) (address : Ip6Address), p.Whole →
        p.text = addressPart 0 (u.skip start).rest →
        address.asU8 host = p.finish.address.flatMap ByteOrder.big.bytes →
        m.setIp6 ip address = ip := by
    refine ⟨fun h => h start hScheme, fun h start' hScheme' => ?_⟩
    obtain rfl := Option.some.inj (hScheme.symm.trans hScheme')
    exact h
  rw [hHere]
  refine and_congr ?_ ?_
  · show _ ↔ ((unformatIp4Address u (u.skip start) (m.ip4 ip)).ret = true →
      m.setIp4 ip (unformatIp4Address u (u.skip start) (m.ip4 ip)).result = ip)
    cases hFour : u.fourDecimals (u.skip start) with
    | none =>
        refine iff_of_true (fun _ _ hNone => nomatch hNone) fun hOne => ?_
        rw [unformatIp4Address, hFour] at hOne
        exact absurd hOne Bool.false_ne_true
    | some four =>
        obtain ⟨numbers, next⟩ := four
        rw [unformatIp4Address_eq hFour]
        by_cases hSmall : ∀ i, numbers i < 256
        · rw [if_pos hSmall]
          refine ⟨fun h _ => h numbers next rfl hSmall, fun h numbers' next' hSame _ => ?_⟩
          obtain ⟨rfl, rfl⟩ := Prod.mk.inj (Option.some.inj hSame)
          exact h rfl
        · rw [if_neg hSmall]
          refine iff_of_true (fun numbers' next' hSame hAll => ?_) nofun
          obtain ⟨rfl, rfl⟩ := Prod.mk.inj (Option.some.inj hSame)
          exact absurd hAll hSmall
  · show _ ↔ (found.ret = true → m.setIp6 ip found.result = ip)
    constructor
    · intro h hOne
      obtain ⟨out, hSpec, hCases⟩ := unformatIp6Address_spec host (u.skip start) (m.ip6 ip)
      obtain rfl := Option.some.inj (hFound.symm.trans hSpec)
      rcases hCases with ⟨hZero, -⟩ | ⟨-, p, hWhole, hText, -, -, hBytes⟩
      · exact absurd (hZero.symm.trans hOne) Bool.false_ne_true
      · exact h p found.result hWhole hText hBytes
    · intro h p address hWhole hText hBytes
      obtain ⟨out, hRun, hOne, hStored⟩ := unformatIp6Address_whole host hWhole hText (m.ip6 ip)
      obtain rfl := Option.some.inj (hFound.symm.trans hRun)
      rw [Ip6Address.ext_asU8 (hBytes.trans hStored.symm)]
      exact h hOne

/-- The second parser stores nothing where the first has stored an address. -/
theorem result_eq_iff {u : Unformat} (hu : u.Documented) {m : Ip46 α} {host : ByteOrder}
    {input start : UnformatInput} {ip : α} {out₁ out₂ : Unformatted α}
    (hScheme : u.scheme input = some start)
    (hRun₁ : ip4Parser u m (u.skip start) ip = some out₁)
    (hRun₂ : ip6Parser host m (u.skip start) out₁.result = some out₂) :
    out₂.result = ip ↔ StoresNothing u m host input ip := by
  cases hRet₁ : out₁.ret with
  | false =>
      have hKept := (readsAddress_ip4Parser hu m).stores _ _ _ hRun₁ hRet₁
      rw [hKept] at hRun₂
      rw [storesNothing_iff hScheme hRun₁ hRun₂, hRet₁]
      cases hRet₂ : out₂.ret with
      | false =>
          have hKept₂ := (readsAddress_ip6Parser host m).stores _ _ _ hRun₂ hRet₂
          simp [hKept₂]
      | true => simp
  | true =>
      obtain ⟨address, hAddress, hReads⟩ := (readsAddress_ip4Parser hu m).reads _ _ _ hRun₁ hRet₁
      have hZero (ip : α) (out : Unformatted α)
          (hRun : ip6Parser host m (u.skip start) ip = some out) : out.ret = false := by
        obtain ⟨found, hFound, rfl⟩ := ip6Parser_eq_some.mp hRun
        obtain ⟨found', hFound', hRet, -⟩ :=
          ret_unformatIp6Address hAddress hReads host (m.ip6 ip)
        obtain rfl := Option.some.inj (hFound.symm.trans hFound')
        exact hRet
      obtain ⟨out₃, hRun₃⟩ := (readsAddress_ip6Parser host m).defined (u.skip start) ip
      rw [storesNothing_iff hScheme hRun₁ hRun₃, hRet₁, hZero _ _ hRun₃,
        (readsAddress_ip6Parser host m).stores _ _ _ hRun₂ (hZero _ _ hRun₂)]
      simp

/-- On a return of 1 the URI is well formed if and only if it is none of those
the code takes on trust; on a return of 0 nothing has changed if and only if
the text after "://" is no address, or one that is stored already. -/
theorem unformatUri_iff {u : Unformat} (hu : u.Documented) (m : Ip46 α) (host : ByteOrder)
    (input : UnformatInput) (sep : SessionEndpointCfg α) :
    ∃ out, unformatUri u m host input sep = some out ∧
      (out.ret = true → (WellFormed host input.rest out.result.port ↔ PlainUri input.rest)) ∧
      (out.ret = false → (out.result = sep ↔ StoresNothing u m host input sep.ip)) := by
  obtain ⟨ip₁, matched₁, hUri₁, hMatched₁, hFirst⟩ :=
    uri_cases hu (readsAddress_ip4Parser hu m) (fun _ => .inl) input sep.ip
  obtain ⟨ip₂, matched₂, hUri₂, hMatched₂, hSecond⟩ :=
    uri_cases hu (readsAddress_ip6Parser host m) (fun _ => .inr) input ip₁
  cases matched₁ with
  | some found =>
      obtain ⟨port, input'⟩ := found
      obtain ⟨hText⟩ := hMatched₁ port input' rfl
      refine ⟨⟨true, input', ⟨ip₁, clibHostToNetU16 port.toUInt16 host, true⟩⟩, ?_,
        fun _ => hText.wellFormed_iff host, fun h => absurd h Bool.true_eq_false_eq_False⟩
      rw [unformatUri, hUri₁]
      rfl
  | none =>
      cases matched₂ with
      | some found =>
          obtain ⟨port, input'⟩ := found
          obtain ⟨hText⟩ := hMatched₂ port input' rfl
          refine ⟨⟨true, input', ⟨ip₂, clibHostToNetU16 port.toUInt16 host, false⟩⟩, ?_,
            fun _ => hText.wellFormed_iff host, fun h => absurd h Bool.true_eq_false_eq_False⟩
          rw [unformatUri, hUri₁]
          show (u.uri (ip6Parser host m) input ip₁).bind _ = _
          rw [hUri₂]
          rfl
      | none =>
          refine ⟨⟨false, input, { sep with ip := ip₂ }⟩, ?_,
            fun h => absurd h Bool.false_ne_true, fun _ => ?_⟩
          · rw [unformatUri, hUri₁]
            show (u.uri (ip6Parser host m) input ip₁).bind _ = _
            rw [hUri₂]
            rfl
          · have hSame : (({ sep with ip := ip₂ } : SessionEndpointCfg α) = sep) ↔ ip₂ = sep.ip :=
              ⟨fun h => congrArg SessionEndpointCfg.ip h, fun h => by rw [h]⟩
            rw [hSame]
            rcases hFirst with ⟨hNone, rfl⟩ | ⟨start, out₁, hScheme, hRun₁, rfl, -⟩
            · rcases hSecond with ⟨-, rfl⟩ | ⟨start, -, hScheme, -⟩
              · exact ⟨fun _ start hScheme => absurd (hNone.symm.trans hScheme) (by simp),
                  fun _ => rfl⟩
              · exact absurd (hNone.symm.trans hScheme) (by simp)
            · rcases hSecond with ⟨hNone, -⟩ | ⟨start', out₂, hScheme', hRun₂, rfl, -⟩
              · exact absurd (hNone.symm.trans hScheme) (by simp)
              · obtain rfl : start = start' := Option.some.inj (hScheme.symm.trans hScheme')
                exact result_eq_iff hu hScheme hRun₁ hRun₂

end

namespace Unformat

def readSign : List UInt8 → DecimalSign × List UInt8
  | [] => (.none, [])
  | c :: rest =>
      if c = minusSign then (.minus, rest)
      else if c = plusSign then (.plus, rest)
      else (.none, c :: rest)

def readDecimal (input : UnformatInput) : Option (UInt32 × UnformatInput) :=
  let (sign, rest) := readSign input.rest
  let digits := rest.takeWhile isDigit
  if digits = [] then none
  else some (UInt32.ofInt (sign.apply (decimalNat digits)),
    ⟨(sign.text ++ digits).reverse ++ input.taken, rest.dropWhile isDigit⟩)

/-- A reader of the pieces. -/
def scanner : Unformat where
  skip input :=
    ⟨(input.rest.takeWhile isWhiteSpace).reverse ++ input.taken,
      input.rest.dropWhile isWhiteSpace⟩
  literal text input :=
    if text <+: input.rest then
      some ⟨text.reverse ++ input.taken, input.rest.drop text.length⟩
    else none
  string stop input :=
    let s := input.rest.takeWhile (· != stop)
    if s = [] then none
    else some (s, ⟨s.reverse ++ input.taken, input.rest.dropWhile (· != stop)⟩)
  decimal := readDecimal

/-- A sign is taken off the front, if there is one. -/
theorem readSign_text (text : List UInt8) : text = (readSign text).1.text ++ (readSign text).2 := by
  rcases text with _ | ⟨c, rest⟩
  · rfl
  · rw [readSign]
    split_ifs with hMinus hPlus
    · rw [hMinus]
      rfl
    · rw [hPlus]
      rfl
    · rfl

/-- A scanner that does what is documented of `unformat`. -/
theorem documented_scanner : scanner.Documented where
  skip input := ⟨input.rest.takeWhile isWhiteSpace, fun _ => List.mem_takeWhile_imp,
    List.takeWhile_append_dropWhile.symm⟩
  literal text input input' h := by
    simp only [scanner, Option.ite_none_right_eq_some, Option.some.injEq] at h
    obtain ⟨⟨rest, hRest⟩, rfl⟩ := h
    rw [← hRest, List.drop_left]
  string stop input s input' h := by
    refine ⟨input.rest.takeWhile (· != stop), ?_, ?_⟩
    · intro hStop
      simpa using List.mem_takeWhile_imp hStop
    · simp only [scanner, Option.ite_none_left_eq_some, Option.some.injEq, Prod.mk.injEq] at h
      obtain ⟨-, -, rfl⟩ := h
      exact List.takeWhile_append_dropWhile.symm
  decimal input x input' h := by
    simp only [scanner, readDecimal, Option.ite_none_left_eq_some, Option.some.injEq,
      Prod.mk.injEq] at h
    obtain ⟨hDigits, rfl, rfl⟩ := h
    refine ⟨⟨(readSign input.rest).1, _, hDigits, fun _ => List.mem_takeWhile_imp⟩, ?_, ?_, rfl⟩
    · rw [Decimal.text, List.append_assoc, List.takeWhile_append_dropWhile]
      exact readSign_text input.rest
    · intro c hc
      have hStop := List.head?_dropWhile_not isDigit (readSign input.rest).2
      rwa [Option.mem_def.mp hc] at hStop

end Unformat

/-- An IPv4 address is the last four bytes of the union. -/
def Ip46.overlaid (host : ByteOrder) : Ip46 Ip6Address where
  ip4 ip := ⟨![host.first (ip.asU16 6), host.second (ip.asU16 6), host.first (ip.asU16 7),
    host.second (ip.asU16 7)]⟩
  setIp4 ip a := (ip.store 6 (host.word (a.asU8 0) (a.asU8 1))).store 7
    (host.word (a.asU8 2) (a.asU8 3))
  ip6 ip := ip
  setIp6 _ a := a
  setIp4_ip4 ip := by
    show Ip6Address.mk (Function.update (Function.update ip.asU16 6
      (host.word (host.first (ip.asU16 6)) (host.second (ip.asU16 6)))) 7
      (host.word (host.first (ip.asU16 7)) (host.second (ip.asU16 7)))) = ip
    rw [ByteOrder.word_first_second, ByteOrder.word_first_second, Function.update_eq_self,
      Function.update_eq_self]
  setIp6_ip6 _ := rfl

/-- A URI of the server, and one without a port. -/
theorem unformatUri_iff_server :
    (PlainUri ("udp://10.0.0.1/1234".toList.map Char.toUInt8) ∧
      ∃ out, unformatUri .scanner (.overlaid .little) .little
          ⟨[], "udp://10.0.0.1/1234".toList.map Char.toUInt8⟩ ⟨⟨fun _ => 0⟩, 0, false⟩ = some out ∧
        out.ret = true ∧
        WellFormed .little ("udp://10.0.0.1/1234".toList.map Char.toUInt8) out.result.port) ∧
    (StoresNothing .scanner (.overlaid .little) .little
        ⟨[], "udp://host".toList.map Char.toUInt8⟩ ⟨fun _ => 0⟩ ∧
      ∃ out, unformatUri .scanner (.overlaid .little) .little
          ⟨[], "udp://host".toList.map Char.toUInt8⟩ ⟨⟨fun _ => 0⟩, 0, false⟩ = some out ∧
        out.ret = false ∧ out.result = ⟨⟨fun _ => 0⟩, 0, false⟩) := by
  constructor
  · have hPlain : PlainUri ("udp://10.0.0.1/1234".toList.map Char.toUInt8) := by decide +kernel
    have hRet : (unformatUri .scanner (.overlaid .little) .little
        ⟨[], "udp://10.0.0.1/1234".toList.map Char.toUInt8⟩ ⟨⟨fun _ => 0⟩, 0, false⟩).map
        Unformatted.ret = some true := by
      decide +kernel
    obtain ⟨out, hRun, hOne, -⟩ := unformatUri_iff Unformat.documented_scanner (.overlaid .little)
      .little ⟨[], "udp://10.0.0.1/1234".toList.map Char.toUInt8⟩ ⟨⟨fun _ => 0⟩, 0, false⟩
    rw [hRun] at hRet
    have hTrue : out.ret = true := Option.some.inj hRet
    exact ⟨hPlain, out, hRun, hTrue, (hOne hTrue).mpr hPlain⟩
  · have hNothing : StoresNothing .scanner (.overlaid .little) .little
        ⟨[], "udp://host".toList.map Char.toUInt8⟩ ⟨fun _ => 0⟩ := by
      let start : UnformatInput :=
        ⟨("udp://".toList.map Char.toUInt8).reverse, "host".toList.map Char.toUInt8⟩
      have hScheme : Unformat.scanner.scheme ⟨[], "udp://host".toList.map Char.toUInt8⟩ =
          some start := rfl
      have hIp4 : (ip4Parser .scanner (.overlaid .little) (Unformat.scanner.skip start)
          ⟨fun _ => 0⟩).map Unformatted.ret = some false := by decide +kernel
      have hIp6 : (ip6Parser .little (.overlaid .little) (Unformat.scanner.skip start)
          ⟨fun _ => 0⟩).map Unformatted.ret = some false := by decide +kernel
      obtain ⟨out₁, hRun₁, hRet₁⟩ := Option.map_eq_some_iff.mp hIp4
      obtain ⟨out₂, hRun₂, hRet₂⟩ := Option.map_eq_some_iff.mp hIp6
      refine (storesNothing_iff hScheme hRun₁ hRun₂).mpr ⟨fun hOne => ?_, fun hOne => ?_⟩
      · exact absurd (hRet₁.symm.trans hOne) Bool.false_ne_true
      · exact absurd (hRet₂.symm.trans hOne) Bool.false_ne_true
    have hRet : (unformatUri .scanner (.overlaid .little) .little
        ⟨[], "udp://host".toList.map Char.toUInt8⟩ ⟨⟨fun _ => 0⟩, 0, false⟩).map
        Unformatted.ret = some false := by
      decide +kernel
    obtain ⟨out, hRun, -, hZero⟩ := unformatUri_iff Unformat.documented_scanner (.overlaid .little)
      .little ⟨[], "udp://host".toList.map Char.toUInt8⟩ ⟨⟨fun _ => 0⟩, 0, false⟩
    rw [hRun] at hRet
    have hFalse : out.ret = false := Option.some.inj hRet
    exact ⟨hNothing, out, hRun, hFalse, (hZero hFalse).mpr hNothing⟩

/-- The port 65616 is taken for port 80, and an address without a port is
stored though the URI is refused. -/
theorem unformatUri_takes_on_trust :
    (∃ out, unformatUri .scanner (.overlaid .little) .little
        ⟨[], "udp://1.2.3.4/65616".toList.map Char.toUInt8⟩ ⟨⟨fun _ => 0⟩, 0, false⟩ = some out ∧
      out.ret = true ∧ ByteOrder.little.bytes out.result.port = [0, 80] ∧
      ¬ WellFormed .little ("udp://1.2.3.4/65616".toList.map Char.toUInt8) out.result.port) ∧
    ∃ out, unformatUri .scanner (.overlaid .little) .little
        ⟨[], "udp://1.2.3.4".toList.map Char.toUInt8⟩ ⟨⟨fun _ => 0⟩, 0, false⟩ = some out ∧
      out.ret = false ∧ out.result ≠ ⟨⟨fun _ => 0⟩, 0, false⟩ := by
  constructor
  · have hPort : (unformatUri .scanner (.overlaid .little) .little
        ⟨[], "udp://1.2.3.4/65616".toList.map Char.toUInt8⟩ ⟨⟨fun _ => 0⟩, 0, false⟩).map
        (fun out => (out.ret, ByteOrder.little.bytes out.result.port)) = some (true, [0, 80]) := by
      decide +kernel
    obtain ⟨out, hRun, hOut⟩ := Option.map_eq_some_iff.mp hPort
    obtain ⟨hOne, hBytes⟩ := Prod.mk.inj hOut
    refine ⟨out, hRun, hOne, hBytes, fun hWell => ?_⟩
    have hPlain : ¬ PlainUri ("udp://1.2.3.4/65616".toList.map Char.toUInt8) := by decide +kernel
    exact hPlain hWell.plainUri
  · have hWord : (unformatUri .scanner (.overlaid .little) .little
        ⟨[], "udp://1.2.3.4".toList.map Char.toUInt8⟩ ⟨⟨fun _ => 0⟩, 0, false⟩).map
        (fun out => (out.ret, out.result.ip.asU16 6)) = some (false, 0x0201) := by
      decide +kernel
    obtain ⟨out, hRun, hOut⟩ := Option.map_eq_some_iff.mp hWord
    obtain ⟨hZero, hSix⟩ := Prod.mk.inj hOut
    refine ⟨out, hRun, hZero, fun hSame => ?_⟩
    rw [hSame] at hSix
    exact absurd hSix (by decide)

end DpdkPerf.UdpEcho
