import DpdkPerf.UdpEcho.Ip6Text
import DpdkPerf.Machine.Words
import Mathlib.Data.List.Chain

/-! What udp-echo accepts as an IPv6 address: texts of the colon-hex form, and
some that are not. -/
namespace DpdkPerf.UdpEcho

/-- The characters an address can be made of: digits, and no more than two
colons in a row. -/
def addressPart (nColon : Nat) : List UInt8 → List UInt8
  | [] => []
  | c :: rest =>
      if hexDigitOf c < 16 then c :: addressPart 0 rest
      else if c = colon ∧ nColon < 2 then c :: addressPart (nColon + 1) rest
      else []

def isColon (c : UInt8) : Bool := c == colon

theorem isColon_colon : isColon colon = true := beq_self_eq_true colon

/-- A ":" at the start that is no part of a "::". -/
def StrayStart (text : List UInt8) : Prop :=
  text.head? = some colon ∧ text.tail.head? ≠ some colon

def StrayEnd (text : List UInt8) : Prop := StrayStart text.reverse

/-- Eight groups, and "::" among them. -/
def Overfull (text : List UInt8) : Prop :=
  [colon, colon] <:+: text ∧ (words isColon text).length = 8

def Regular (text : List UInt8) : Prop := ¬ StrayStart text ∧ ¬ StrayEnd text ∧ ¬ Overfull text

instance (text : List UInt8) : Decidable (StrayStart text) :=
  inferInstanceAs (Decidable (text.head? = some colon ∧ text.tail.head? ≠ some colon))

instance (text : List UInt8) : Decidable (StrayEnd text) :=
  inferInstanceAs (Decidable (StrayStart text.reverse))

instance (text : List UInt8) : Decidable (Overfull text) :=
  inferInstanceAs (Decidable ([colon, colon] <:+: text ∧ (words isColon text).length = 8))

instance (text : List UInt8) : Decidable (Regular text) :=
  inferInstanceAs (Decidable (¬ StrayStart text ∧ ¬ StrayEnd text ∧ ¬ Overfull text))

namespace HexGroup

/-- Groups that end with their ":". -/
def ended (groups : List HexGroup) : List UInt8 := groups.flatMap fun g => g.text ++ [colon]

theorem ended_append (groups groups' : List HexGroup) :
    ended (groups ++ groups') = ended groups ++ ended groups' := List.flatMap_append

theorem ended_singleton (g : HexGroup) : ended [g] = g.text ++ [colon] := by
  rw [ended, List.flatMap_cons, List.flatMap_nil, List.append_nil]

/-- A group and its colon take at most five characters. -/
theorem length_ended_le (groups : List HexGroup) :
    (ended groups).length ≤ 5 * groups.length := by
  induction groups with
  | nil => exact Nat.zero_le _
  | cons g groups ih =>
      have hGroup := g.le_four
      simp only [ended, List.flatMap_cons, List.length_append, List.length_cons,
        List.length_nil, text, List.length_map] at ih ⊢
      omega

/-- The last group has no colon behind it. -/
theorem join_concat (groups : List HexGroup) (last : HexGroup) :
    join (groups ++ [last]) = ended groups ++ last.text := by
  induction groups with
  | nil => exact join_singleton last
  | cons g groups ih =>
      rw [List.cons_append, join_cons g (by simp), ih, ended, ended, List.flatMap_cons,
        List.append_assoc, List.append_assoc]
      rfl

/-- Groups in front of another ":". -/
theorem join_colon {groups : List HexGroup} (h : groups ≠ []) :
    join groups ++ [colon] = ended groups := by
  obtain ⟨groups, last, rfl⟩ := (List.eq_nil_or_concat groups).resolve_left h
  rw [List.concat_eq_append, join_concat, ended_append, ended_singleton, List.append_assoc]

theorem char_ne_colon (d : HexDigit) : d.char ≠ colon := by
  obtain ⟨value, upper⟩ := d
  revert value upper
  decide

theorem text_ne_nil (g : HexGroup) : g.text ≠ [] := by
  intro h
  have hLength := congrArg List.length h
  rw [text, List.length_map, List.length_nil] at hLength
  exact absurd g.pos (by omega)

theorem solid_chars (digits : List HexDigit) :
    Solid isColon (digits.map HexDigit.char) := by
  intro c hc
  obtain ⟨d, -, rfl⟩ := List.mem_map.mp hc
  exact beq_eq_false_iff_ne.mpr (char_ne_colon d)

theorem words_text (g : HexGroup) : words isColon g.text = [g.text] :=
  words_of_solid (solid_chars g.digits) g.text_ne_nil

/-- Ended groups are read as words one after the other. -/
theorem words_ended (groups : List HexGroup) (rest : List UInt8) :
    words isColon (ended groups ++ rest) =
      groups.map text ++ words isColon rest := by
  induction groups with
  | nil => rfl
  | cons g groups ih =>
      have hText : ended (g :: groups) ++ rest = g.text ++ colon :: (ended groups ++ rest) := by
        rw [ended, List.flatMap_cons, List.append_assoc, List.append_assoc]
        rfl
      rw [hText, words_append_cons _ _ isColon_colon, words_text, ih]
      rfl

theorem words_join (groups : List HexGroup) :
    words isColon (join groups) = groups.map text := by
  rcases List.eq_nil_or_concat groups with rfl | ⟨groups, last, rfl⟩
  · rfl
  · rw [List.concat_eq_append, join_concat, words_ended, words_text, List.map_append]
    rfl

end HexGroup

theorem words_colon (rest : List UInt8) :
    words isColon (colon :: rest) = words isColon rest :=
  words_append_cons [] rest isColon_colon

theorem head_digits {digits : List HexDigit} (h : digits ≠ []) (rest : List UInt8) :
    ∃ d : HexDigit, (digits.map HexDigit.char ++ rest).head? = some d.char := by
  obtain ⟨d, digits, rfl⟩ := List.exists_cons_of_ne_nil h
  exact ⟨d, rfl⟩

/-- A text that starts with a digit has no stray colon in front. -/
theorem not_strayStart_digits {digits : List HexDigit} (h : digits ≠ []) (rest : List UInt8) :
    ¬ StrayStart (digits.map HexDigit.char ++ rest) := by
  intro hStray
  obtain ⟨d, hHead⟩ := head_digits h rest
  rw [StrayStart, hHead] at hStray
  exact HexGroup.char_ne_colon d (Option.some.inj hStray.1)

/-- A single colon before a digit is stray. -/
theorem strayStart_digits {digits : List HexDigit} (h : digits ≠ []) (rest : List UInt8) :
    StrayStart (colon :: (digits.map HexDigit.char ++ rest)) := by
  obtain ⟨d, hHead⟩ := head_digits h rest
  refine ⟨rfl, ?_⟩
  rw [List.tail_cons, hHead]
  exact fun hColon => HexGroup.char_ne_colon d (Option.some.inj hColon)

theorem not_strayStart_double (rest : List UInt8) : ¬ StrayStart (colon :: colon :: rest) :=
  fun hStray => hStray.2 rfl

theorem not_strayEnd_digits {digits : List HexDigit} (h : digits ≠ []) (first : List UInt8) :
    ¬ StrayEnd (first ++ digits.map HexDigit.char) := by
  rw [StrayEnd, List.reverse_append, ← List.map_reverse]
  exact not_strayStart_digits (by simpa using h) first.reverse

theorem not_strayEnd_double (first : List UInt8) : ¬ StrayEnd (first ++ [colon, colon]) := by
  rw [StrayEnd, List.reverse_append]
  exact not_strayStart_double first.reverse

namespace HexGroup

theorem digits_ne_nil (g : HexGroup) : g.digits ≠ [] := List.ne_nil_of_length_pos g.pos

/-- A single colon before ended groups is stray. -/
theorem strayStart_ended {groups : List HexGroup} (h : groups ≠ []) (rest : List UInt8) :
    StrayStart (colon :: (ended groups ++ rest)) := by
  obtain ⟨g, groups, rfl⟩ := List.exists_cons_of_ne_nil h
  rw [ended, List.flatMap_cons, List.append_assoc, List.append_assoc]
  exact strayStart_digits g.digits_ne_nil _

/-- The colon of the last ended group is stray at the end. -/
theorem strayEnd_ended {groups : List HexGroup} (h : groups ≠ []) (first : List UInt8) :
    StrayEnd (first ++ ended groups) := by
  obtain ⟨groups, g, rfl⟩ := (List.eq_nil_or_concat' groups).resolve_left h
  rw [StrayEnd, ended_append, ended_singleton, ← List.append_assoc, ← List.append_assoc,
    List.reverse_append, List.reverse_append]
  show StrayStart (colon :: (g.text.reverse ++ _))
  rw [text, ← List.map_reverse]
  exact strayStart_digits (by simpa using g.digits_ne_nil) _

/-- No two colons in a row. -/
def Single (text : List UInt8) : Prop := text.IsChain fun c d => c = colon → d ≠ colon

/-- A text without a double colon cannot have one too many. -/
theorem Single.not_overfull {text : List UInt8} (h : Single text) : ¬ Overfull text := by
  intro hOver
  have hTwo : [colon, colon].IsChain fun c d => c = colon → d ≠ colon := h.infix hOver.1
  rw [List.isChain_pair] at hTwo
  exact hTwo rfl rfl

/-- Digits bring no double colon. -/
theorem single_digits (digits : List HexDigit) {rest : List UInt8} (h : Single rest) :
    Single (digits.map HexDigit.char ++ rest) := by
  induction digits with
  | nil => exact h
  | cons d digits ih =>
      refine List.isChain_cons.mpr ⟨?_, ih⟩
      intro c _ hColon
      exact absurd hColon (char_ne_colon d)

theorem exists_join_cons (g : HexGroup) (groups : List HexGroup) :
    ∃ rest, join (g :: groups) = g.text ++ rest := by
  rcases groups with _ | ⟨g', groups⟩
  · exact ⟨[], by rw [join_singleton, List.append_nil]⟩
  · exact ⟨_, join_cons g (by simp)⟩

theorem single_join (groups : List HexGroup) : Single (join groups) := by
  induction groups with
  | nil => exact List.isChain_nil
  | cons g groups ih =>
      rcases groups with _ | ⟨g', groups⟩
      · rw [join_singleton, ← List.append_nil g.text]
        exact single_digits g.digits List.isChain_nil
      · rw [join_cons g (by simp)]
        refine single_digits g.digits (List.isChain_cons.mpr ⟨?_, ih⟩)
        obtain ⟨rest, hRest⟩ := exists_join_cons g' groups
        obtain ⟨d, hHead⟩ := head_digits g'.digits_ne_nil rest
        intro c hc _
        rw [hRest] at hc
        obtain rfl : d.char = c := Option.some.inj (hHead.symm.trans hc)
        exact char_ne_colon d

end HexGroup

/-- None of the three is in a text of an address. -/
theorem Ip6Text.regular (t : Ip6Text) : Regular t.text := by
  cases t with
  | full groups eight =>
      obtain ⟨groups, last, rfl⟩ := (List.eq_nil_or_concat' groups).resolve_left (by
        rintro rfl
        exact absurd eight (by decide))
      refine ⟨?_, ?_, (HexGroup.single_join _).not_overfull⟩
      · rcases groups with _ | ⟨g, groups⟩
        · exact absurd eight (by simp)
        · obtain ⟨rest, hRest⟩ := HexGroup.exists_join_cons g (groups ++ [last])
          rw [Ip6Text.text, List.cons_append, hRest]
          exact not_strayStart_digits g.digits_ne_nil rest
      · rw [Ip6Text.text, HexGroup.join_concat]
        exact not_strayEnd_digits last.digits_ne_nil _
  | compressed before after short =>
      refine ⟨?_, ?_, ?_⟩
      · rcases before with _ | ⟨g, before⟩
        · exact not_strayStart_double _
        · obtain ⟨rest, hRest⟩ := HexGroup.exists_join_cons g before
          rw [Ip6Text.text, hRest, List.append_assoc, List.append_assoc]
          exact not_strayStart_digits g.digits_ne_nil _
      · rcases List.eq_nil_or_concat after with rfl | ⟨after, last, rfl⟩
        · rw [Ip6Text.text, HexGroup.join_nil, List.append_nil]
          exact not_strayEnd_double _
        · rw [Ip6Text.text, List.concat_eq_append, HexGroup.join_concat, ← List.append_assoc]
          exact not_strayEnd_digits last.digits_ne_nil _
      · intro hOver
        have hWords : words isColon (Ip6Text.compressed before after short).text =
            before.map HexGroup.text ++ after.map HexGroup.text := by
          rw [Ip6Text.text, List.append_assoc]
          show words isColon (HexGroup.join before ++ colon :: colon :: HexGroup.join after) = _
          rw [words_append_cons _ _ isColon_colon, words_colon, HexGroup.words_join,
            HexGroup.words_join]
        have hCount := hOver.2
        rw [hWords, List.length_append, List.length_map, List.length_map] at hCount
        omega

theorem addressPart_digit {c : UInt8} (hDigit : hexDigitOf c < 16) (nColon : Nat)
    (rest : List UInt8) : addressPart nColon (c :: rest) = c :: addressPart 0 rest :=
  if_pos hDigit

theorem addressPart_colon {nColon : Nat} (h : nColon < 2) (rest : List UInt8) :
    addressPart nColon (colon :: rest) = colon :: addressPart (nColon + 1) rest := by
  rw [addressPart, hexDigitOf_colon, if_neg (Nat.lt_irrefl 16), if_pos ⟨rfl, h⟩]

/-- The address part stands at the front. -/
theorem addressPart_prefix (nColon : Nat) (rest : List UInt8) :
    addressPart nColon rest <+: rest := by
  fun_induction addressPart nColon rest with
  | case1 nColon => exact List.prefix_refl []
  | case2 nColon c rest hDigit ih => exact (List.prefix_cons_inj c).mpr ih
  | case3 nColon c rest hDigit hColon ih => exact (List.prefix_cons_inj c).mpr ih
  | case4 nColon c rest hDigit hColon => exact List.nil_prefix

/-- A ninth group. -/
theorem scanRound_full {s s' : Scan} {c : UInt8} (hClass : s.classify c = some s')
    (hFull : 8 ≤ s'.nHexQuads) : scanRound s c = some .returnZero := by
  simp only [scanRound, hClass, if_pos hFull]

/-- A fifth digit. -/
theorem scanRound_fifth {s : Scan} {c : UInt8} (hDigit : hexDigitOf c < 16)
    (hRoom : s.nHexQuads < 8) (hFour : 4 ≤ s.nHexDigits) :
    scanRound s c = some .returnZero := by
  have hClass : s.classify c = some s := if_pos hDigit
  have hTake : s.takeDigit (hexDigitOf c) = none := by
    rw [Scan.takeDigit, if_pos hDigit, if_pos hFour]
  simp only [scanRound, hClass, if_neg (Nat.not_le.mpr hRoom), hTake]

/-- A second "::". -/
theorem scanRound_second {s : Scan} (hRoom : s.nHexQuads < 8) (hColon : s.nColon = 1)
    (hDouble : s.doubleColonIndex < 8) : scanRound s colon = some .returnZero := by
  rw [scanRound_colon hRoom (by omega), Scan.markDoubleColon, hColon, if_pos rfl, if_pos hDouble]

theorem scanRound_other {s : Scan} {c : UInt8} (hDigit : ¬ hexDigitOf c < 16)
    (hColon : ¬ (c = colon ∧ s.nColon < 2)) : scanRound s c = some .putBack := by
  have hClass : s.classify c = none := by rw [Scan.classify, if_neg hDigit, if_neg hColon]
  simp only [scanRound, hClass]

/-- What the loop has taken so far: a ":" at the start, the groups that have
ended, those after a "::" apart, and the digits of the group it is in. -/
structure Progress where
  lead : Bool
  double : Bool
  before : List HexGroup
  after : List HexGroup
  digits : List HexDigit
  after_eq : double = false → after = []
  opened : double = true → lead = true ∨ before ≠ []
  before_lt : double = true → before.length < 8
  few : digits.length ≤ 4
  le_eight : (before ++ after).length ≤ 8
  lt_eight : digits ≠ [] → (before ++ after).length < 8

namespace Progress

def start : Progress where
  lead := false
  double := false
  before := []
  after := []
  digits := []
  after_eq := fun _ => rfl
  opened := fun h => absurd h Bool.false_ne_true
  before_lt := fun h => absurd h Bool.false_ne_true
  few := Nat.zero_le 4
  le_eight := Nat.zero_le 8
  lt_eight := fun h => absurd rfl h

def groups (p : Progress) : List HexGroup := p.before ++ p.after

def quads (p : Progress) : List UInt16 := p.groups.map HexGroup.quad

/-- The characters taken. -/
def text (p : Progress) : List UInt8 :=
  (if p.lead then [colon] else []) ++ HexGroup.ended p.before ++
    (if p.double then colon :: HexGroup.ended p.after else []) ++ p.digits.map HexDigit.char

def nColon (p : Progress) : Nat :=
  if p.digits ≠ [] then 0
  else if p.after ≠ [] then 1
  else if p.double then 2
  else if p.lead = true ∨ p.before ≠ [] then 1
  else 0

def doubleColonIndex (p : Progress) : Nat := if p.double then p.before.length else 8

def scan (p : Progress) : Scan :=
  { hexQuads := .ofList p.quads
    hexQuad := UInt64.ofNat (HexGroup.extend 0 p.digits)
    nHexQuads := p.quads.length
    nHexDigits := p.digits.length
    nColon := p.nColon
    doubleColonIndex := p.doubleColonIndex }

theorem length_quads (p : Progress) : p.quads.length = p.groups.length := List.length_map ..

theorem nHexQuads_lt (p : Progress) : p.scan.nHexQuads < 8 ↔ p.groups.length < 8 := by
  rw [← length_quads]
  rfl

/-- One more digit. -/
def digit (p : Progress) (d : HexDigit) (hRoom : p.groups.length < 8)
    (hFew : p.digits.length < 4) : Progress :=
  { p with
    digits := p.digits ++ [d]
    few := by
      rw [List.length_append]
      exact hFew
    lt_eight := fun _ => hRoom }

/-- The group it is in, if it is in one. -/
def group (p : Progress) (h : p.digits ≠ []) : HexGroup :=
  ⟨p.digits, List.length_pos_of_ne_nil h, p.few⟩

/-- A ":" after a group. -/
def close (p : Progress) (h : p.digits ≠ []) : Progress :=
  { p with
    before := if p.double then p.before else p.before ++ [p.group h]
    after := if p.double then p.after ++ [p.group h] else []
    digits := []
    after_eq := fun hDouble => by rw [hDouble]; rfl
    opened := fun hDouble => by rw [if_pos hDouble]; exact p.opened hDouble
    before_lt := fun hDouble => by rw [if_pos hDouble]; exact p.before_lt hDouble
    few := Nat.zero_le 4
    le_eight := by
      have hRoom := p.lt_eight h
      rw [List.length_append] at hRoom
      split
      · rw [List.length_append, List.length_append, List.length_singleton]
        omega
      · rw [List.append_nil, List.length_append, List.length_singleton]
        omega
    lt_eight := fun hNil => absurd rfl hNil }

/-- A ":" at the start. -/
def leading (p : Progress) : Progress := { p with lead := true, opened := fun _ => .inl rfl }

/-- The second ":" of a "::". -/
def opening (p : Progress) (hOpened : p.lead = true ∨ p.before ≠ [])
    (hRoom : p.groups.length < 8) : Progress :=
  { p with
    double := true
    after_eq := fun h => absurd h.symm Bool.false_ne_true
    opened := fun _ => hOpened
    before_lt := fun _ => by
      rw [groups, List.length_append] at hRoom
      show p.before.length < 8
      omega }

/-- A colon behind digits ends a group. -/
theorem groups_close (p : Progress) (h : p.digits ≠ []) :
    (p.close h).groups = p.groups ++ [p.group h] := by
  rcases Bool.eq_false_or_eq_true p.double with hDouble | hDouble
  · simp only [groups, close, hDouble, if_true, List.append_assoc]
  · simp only [groups, close, hDouble, Bool.false_eq_true, if_false, List.append_nil,
      p.after_eq hDouble]

theorem quads_close (p : Progress) (h : p.digits ≠ []) :
    (p.close h).quads = p.quads ++ [(p.group h).quad] := by
  rw [quads, groups_close, List.map_append]
  rfl

/-- Where the double colon was does not change with that. -/
theorem doubleColonIndex_close (p : Progress) (h : p.digits ≠ []) :
    (p.close h).doubleColonIndex = p.doubleColonIndex := by
  rcases Bool.eq_false_or_eq_true p.double with hDouble | hDouble
  · simp only [doubleColonIndex, close, hDouble, if_true]
  · simp only [doubleColonIndex, close, hDouble, Bool.false_eq_true, if_false]

theorem nColon_close (p : Progress) (h : p.digits ≠ []) : (p.close h).nColon = 1 := by
  rcases Bool.eq_false_or_eq_true p.double with hDouble | hDouble
  · simp [nColon, close, hDouble]
  · simp [nColon, close, hDouble]

theorem text_digit (p : Progress) (d : HexDigit) (hRoom : p.groups.length < 8)
    (hFew : p.digits.length < 4) : (p.digit d hRoom hFew).text = p.text ++ [d.char] := by
  rw [text, text, digit, List.map_append, ← List.append_assoc]
  rfl

theorem text_close (p : Progress) (h : p.digits ≠ []) :
    (p.close h).text = p.text ++ [colon] := by
  rcases Bool.eq_false_or_eq_true p.double with hDouble | hDouble
  · simp [text, close, hDouble, HexGroup.ended_append, HexGroup.ended_singleton, HexGroup.text,
      group]
  · simp [text, close, hDouble, HexGroup.ended_append, HexGroup.ended_singleton, HexGroup.text,
      group]

/-- Nothing has been taken yet. -/
theorem eq_start {p : Progress} (hDigits : p.digits = []) (hColon : p.nColon = 0) :
    p = start := by
  obtain ⟨lead, double, before, after, digits, after_eq, opened, before_lt, few, le_eight,
    lt_eight⟩ := p
  obtain rfl : digits = [] := hDigits
  rw [nColon, if_neg (not_not_intro rfl)] at hColon
  split_ifs at hColon with hAfter hDouble hOpen
  obtain rfl : double = false := Bool.eq_false_iff.mpr hDouble
  obtain rfl : after = [] := not_ne_iff.mp hAfter
  rw [not_or, not_ne_iff, Bool.not_eq_true] at hOpen
  obtain ⟨rfl, rfl⟩ : lead = false ∧ before = [] := hOpen
  rfl

/-- One ":" has been taken since the last digit, and no "::" before it. -/
theorem of_nColon_one {p : Progress} (hDigits : p.digits = []) (hColon : p.nColon = 1)
    (hDouble : p.double = false) : p.lead = true ∨ p.before ≠ [] := by
  rw [nColon, if_neg (not_not_intro hDigits), if_neg (not_not_intro (p.after_eq hDouble)),
    if_neg (by rw [hDouble]; exact Bool.false_ne_true)] at hColon
  by_contra hOpen
  rw [if_neg hOpen] at hColon
  exact absurd hColon (by omega)

theorem text_opening {p : Progress} (hDigits : p.digits = []) (hDouble : p.double = false)
    (hOpened : p.lead = true ∨ p.before ≠ []) (hRoom : p.groups.length < 8) :
    (p.opening hOpened hRoom).text = p.text ++ [colon] := by
  simp [text, opening, hDigits, hDouble, p.after_eq hDouble, HexGroup.ended]

/-- The loop takes the digit. -/
theorem scan_digit (p : Progress) (d : HexDigit) (hRoom : p.groups.length < 8)
    (hFew : p.digits.length < 4) :
    scanRound p.scan d.char = some (.next (p.digit d hRoom hFew).scan) := by
  rw [scanRound_char d rfl (p.nHexQuads_lt.mpr hRoom) hFew]
  have hColon : (p.digit d hRoom hFew).nColon = 0 := by
    rw [nColon, if_pos (by simp [digit])]
  have hLength : (p.digit d hRoom hFew).digits.length = p.digits.length + 1 :=
    List.length_append
  have hExtend : HexGroup.extend 0 (p.digit d hRoom hFew).digits =
      16 * HexGroup.extend 0 p.digits + d.value := by
    rw [HexGroup.extend, HexGroup.extend, digit, List.foldl_append]
    rfl
  rw [scan, scan, hColon, hLength, hExtend]
  rfl

/-- The loop takes the colon that ends a group. -/
theorem scan_close (p : Progress) (h : p.digits ≠ []) :
    scanRound p.scan colon = some (.next (p.close h).scan) := by
  have hRoom : p.quads.length < 8 := by
    rw [length_quads]
    exact p.lt_eight h
  have hQuad : (UInt64.ofNat (HexGroup.extend 0 p.digits)).toUInt16 = (p.group h).quad :=
    toUInt16_number (p.group h)
  rw [scanRound_colon_group (s := p.scan) p.quads rfl rfl hRoom (List.length_pos_of_ne_nil h)
    (if_pos h)]
  show some (Round.next
    { p.scan with
      hexQuads := .ofList (p.quads ++ [(UInt64.ofNat (HexGroup.extend 0 p.digits)).toUInt16])
      nHexQuads := p.quads.length + 1
      hexQuad := 0
      nHexDigits := 0
      nColon := 1 }) = _
  rw [hQuad, scan, scan, quads_close, nColon_close, doubleColonIndex_close, List.length_append]
  rfl

theorem scan_leading : scanRound start.scan colon = some (.next start.leading.scan) :=
  scanRound_colon_start (by decide) rfl rfl

theorem scan_opening {p : Progress} (hDigits : p.digits = []) (hColon : p.nColon = 1)
    (hDouble : p.double = false) (hOpened : p.lead = true ∨ p.before ≠ [])
    (hRoom : p.groups.length < 8) :
    scanRound p.scan colon = some (.next (p.opening hOpened hRoom).scan) := by
  have hNone : p.after = [] := p.after_eq hDouble
  have hIndex : p.scan.doubleColonIndex = 8 := by
    show p.doubleColonIndex = 8
    rw [doubleColonIndex, hDouble, if_neg Bool.false_ne_true]
  have hTwo : (p.opening hOpened hRoom).nColon = 2 := by
    simp [nColon, opening, hDigits, hNone]
  have hHere : (p.opening hOpened hRoom).doubleColonIndex = p.quads.length := by
    simp [doubleColonIndex, opening, length_quads, groups, hNone]
  rw [scanRound_colon_double (p.nHexQuads_lt.mpr hRoom)
    (congrArg List.length hDigits) hColon hIndex]
  rw [scan, scan, hTwo, hHere]
  rfl

/-- What a ":" does to the loop, and to what it has taken. -/
theorem scanRound_spec_colon (p : Progress) (hColon : p.nColon < 2) :
    scanRound p.scan colon = some .returnZero ∨
      ∃ p' : Progress, scanRound p.scan colon = some (.next p'.scan) ∧
        p'.text = p.text ++ [colon] ∧ p'.nColon = p.nColon + 1 := by
  by_cases hRoom : p.groups.length < 8
  · by_cases hDigits : p.digits = []
    · have hCases : p.nColon = 0 ∨ p.nColon = 1 := by omega
      rcases hCases with hZero | hOne
      · obtain rfl := eq_start hDigits hZero
        exact .inr ⟨start.leading, scan_leading, rfl, rfl⟩
      · cases hDouble : p.double with
        | true =>
            refine .inl (scanRound_second (p.nHexQuads_lt.mpr hRoom) hOne ?_)
            show p.doubleColonIndex < 8
            rw [doubleColonIndex, if_pos hDouble]
            exact p.before_lt hDouble
        | false =>
            have hOpened := of_nColon_one hDigits hOne hDouble
            refine .inr ⟨p.opening hOpened hRoom, scan_opening hDigits hOne hDouble hOpened hRoom,
              text_opening hDigits hDouble hOpened hRoom, ?_⟩
            rw [hOne]
            simp [nColon, opening, hDigits, p.after_eq hDouble]
    · refine .inr ⟨p.close hDigits, scan_close p hDigits, text_close p hDigits, ?_⟩
      rw [nColon_close, nColon, if_pos hDigits]
  · exact .inl (scanRound_full (Scan.classify_colon hColon)
      (Nat.not_lt.mp (mt p.nHexQuads_lt.mp hRoom)))

/-- What a character does to the loop, and to what it has taken. -/
theorem scanRound_spec (p : Progress) (c : UInt8) :
    (scanRound p.scan c = some .putBack ∧ ∀ rest, addressPart p.nColon (c :: rest) = []) ∨
      scanRound p.scan c = some .returnZero ∨
      ∃ p' : Progress, scanRound p.scan c = some (.next p'.scan) ∧ p'.text = p.text ++ [c] ∧
        ∀ rest, addressPart p.nColon (c :: rest) = c :: addressPart p'.nColon rest := by
  by_cases hDigit : hexDigitOf c < 16
  · refine .inr ?_
    by_cases hRoom : p.groups.length < 8
    · by_cases hFew : p.digits.length < 4
      · obtain ⟨d, rfl⟩ := exists_char hDigit
        refine .inr ⟨p.digit d hRoom hFew, scan_digit p d hRoom hFew, text_digit p d hRoom hFew, ?_⟩
        intro rest
        rw [addressPart_digit hDigit, nColon, if_pos (by simp [digit])]
      · exact .inl (scanRound_fifth hDigit (p.nHexQuads_lt.mpr hRoom)
          (Nat.not_lt.mp hFew))
    · exact .inl (scanRound_full (if_pos hDigit) (Nat.not_lt.mp (mt p.nHexQuads_lt.mp hRoom)))
  · by_cases hColon : c = colon ∧ p.nColon < 2
    · obtain ⟨rfl, hColon⟩ := hColon
      rcases scanRound_spec_colon p hColon with hZero | ⟨p', hRound, hText, hCount⟩
      · exact .inr (.inl hZero)
      · refine .inr (.inr ⟨p', hRound, hText, fun rest => ?_⟩)
        rw [hCount, addressPart_colon hColon]
    · refine .inl ⟨scanRound_other hDigit hColon, fun rest => ?_⟩
      rw [addressPart, if_neg hDigit, if_neg hColon]

/-- The loop takes the address part and nothing else, or returns 0 in it. -/
theorem scanLoop_spec (p : Progress) (taken rest : List UInt8) :
    (∃ input, scanLoop p.scan taken rest = some (.returnZero input)) ∨
      ∃ (p' : Progress) (left : List UInt8),
        scanLoop p.scan taken rest =
          some (.done p'.scan ⟨(addressPart p.nColon rest).reverse ++ taken, left⟩) ∧
        p'.text = p.text ++ addressPart p.nColon rest ∧
        addressPart p.nColon rest ++ left = rest := by
  induction rest generalizing p taken with
  | nil => exact .inr ⟨p, [], rfl, (List.append_nil _).symm, rfl⟩
  | cons c rest ih =>
      rcases scanRound_spec p c with ⟨hRound, hPart⟩ | hRound | ⟨p', hRound, hText, hPart⟩
      · refine .inr ⟨p, c :: rest, ?_, ?_, ?_⟩
        · rw [hPart]
          exact scanLoop_putBack hRound taken rest
        · rw [hPart, List.append_nil]
        · rw [hPart, List.nil_append]
      · exact .inl ⟨⟨c :: taken, rest⟩, scanLoop_returnZero hRound taken rest⟩
      · rw [scanLoop_next hRound, hPart]
        rcases ih p' (c :: taken) with hZero | ⟨q, left, hLoop, hMore, hLeft⟩
        · exact .inl hZero
        · refine .inr ⟨q, left, ?_, ?_, congrArg (c :: ·) hLeft⟩
          · rw [hLoop, List.reverse_cons, List.append_assoc]
            rfl
          · rw [hMore, hText, List.append_assoc]
            rfl

/-- What has been taken was taken a character at a time: the last one led from
a shorter text to it. -/
theorem eq_start_or_step (p : Progress) :
    p = start ∨ ∃ (q : Progress) (c : UInt8), scanRound q.scan c = some (.next p.scan) ∧
      p.text = q.text ++ [c] := by
  obtain ⟨lead, double, before, after, digits, after_eq, opened, before_lt, few, le_eight,
    lt_eight⟩ := p
  rcases List.eq_nil_or_concat' digits with rfl | ⟨digits, d, rfl⟩
  · cases double with
    | true =>
        rcases List.eq_nil_or_concat' after with rfl | ⟨after, g, rfl⟩
        · -- the second colon of the "::"
          let q : Progress := ⟨lead, false, before, [], [], fun _ => rfl, nofun, nofun, few,
            le_eight, lt_eight⟩
          have hOpened : q.lead = true ∨ q.before ≠ [] := opened rfl
          have hRoom : q.groups.length < 8 := by
            rw [groups, List.append_nil]
            exact before_lt rfl
          have hColon : q.nColon = 1 := by
            simp only [nColon, q, ne_eq, not_true_eq_false, if_false, Bool.false_eq_true]
            exact if_pos hOpened
          exact .inr ⟨q, colon, scan_opening rfl hColon rfl hOpened hRoom,
            text_opening rfl rfl hOpened hRoom⟩
        · -- the colon after a group behind the "::"
          rw [← List.append_assoc, List.length_append, List.length_singleton] at le_eight
          let q : Progress := ⟨lead, true, before, after, g.digits, nofun, opened, before_lt,
            g.le_four, by omega, fun _ => by omega⟩
          have hDigits : q.digits ≠ [] := g.digits_ne_nil
          exact .inr ⟨q, colon, scan_close q hDigits, text_close q hDigits⟩
    | false =>
        obtain rfl : after = [] := after_eq rfl
        rcases List.eq_nil_or_concat' before with rfl | ⟨before, g, rfl⟩
        · cases lead with
          | false => exact .inl rfl
          | true => exact .inr ⟨start, colon, scan_leading, rfl⟩
        · rw [List.append_nil, List.length_append, List.length_singleton] at le_eight
          let q : Progress := ⟨lead, false, before, [], g.digits, fun _ => rfl, nofun, nofun,
            g.le_four, by rw [List.append_nil]; omega, fun _ => by rw [List.append_nil]; omega⟩
          have hDigits : q.digits ≠ [] := g.digits_ne_nil
          exact .inr ⟨q, colon, scan_close q hDigits, text_close q hDigits⟩
  · have hLength : (digits ++ [d]).length = digits.length + 1 := List.length_append
    have hRoom : (before ++ after).length < 8 :=
      lt_eight (List.append_ne_nil_of_right_ne_nil _ (List.cons_ne_nil d []))
    let q : Progress := ⟨lead, double, before, after, digits, after_eq, opened, before_lt, by omega,
      le_eight, fun _ => hRoom⟩
    have hFew : q.digits.length < 4 := by
      show digits.length < 4
      omega
    exact .inr ⟨q, d.char, scan_digit q d hRoom hFew, text_digit q d hRoom hFew⟩

/-- The loop reads whatever text it could have taken, and then stands behind
it. -/
theorem scanLoop_text (p : Progress) (taken left : List UInt8) :
    scanLoop start.scan taken (p.text ++ left) = scanLoop p.scan (p.text.reverse ++ taken) left ∧
      addressPart 0 (p.text ++ left) = p.text ++ addressPart p.nColon left := by
  induction hLength : p.text.length generalizing p left with
  | zero =>
      rcases eq_start_or_step p with rfl | ⟨q, c, -, hText⟩
      · exact ⟨rfl, rfl⟩
      · rw [hText, List.length_append] at hLength
        exact absurd hLength (by simp)
  | succ n ih =>
      rcases eq_start_or_step p with rfl | ⟨q, c, hRound, hText⟩
      · exact absurd hLength.symm (Nat.succ_ne_zero n)
      · rw [hText, List.length_append, List.length_singleton] at hLength
        obtain ⟨hLoop, hPart⟩ := ih q (c :: left) (by omega)
        rw [hText, List.append_assoc, List.singleton_append, hLoop, hPart, scanLoop_next hRound]
        rcases scanRound_spec q c with ⟨hOther, -⟩ | hOther | ⟨q', hOther, -, hMore⟩
        · exact absurd (Option.some.inj (hOther.symm.trans hRound)) Round.noConfusion
        · exact absurd (Option.some.inj (hOther.symm.trans hRound)) Round.noConfusion
        · have hScan : q'.scan = p.scan :=
            Round.next.inj (Option.some.inj (hOther.symm.trans hRound))
          have hColon : q'.nColon = p.nColon := congrArg Scan.nColon hScan
          rw [hMore, hColon, List.reverse_append, List.append_assoc, List.append_assoc]
          exact ⟨rfl, rfl⟩

/-- The loop ends where the text does, if that is all of the address part. -/
theorem scanLoop_addressPart (p : Progress) {rest : List UInt8}
    (hPart : p.text = addressPart 0 rest) (taken : List UInt8) :
    ∃ input, scanLoop start.scan taken rest = some (.done p.scan input) := by
  obtain ⟨left, hRest⟩ := addressPart_prefix 0 rest
  rw [← hPart] at hRest
  obtain ⟨hLoop, hWhole⟩ := scanLoop_text p taken left
  rw [hRest] at hLoop
  rw [hRest, ← hPart, List.self_eq_append_right] at hWhole
  cases left with
  | nil => exact ⟨_, hLoop⟩
  | cons c left =>
      have hDigit : ¬ hexDigitOf c < 16 := by
        intro hDigit
        rw [addressPart_digit hDigit] at hWhole
        cases hWhole
      have hColon : ¬ (c = colon ∧ p.nColon < 2) := by
        rintro ⟨rfl, hColon⟩
        rw [addressPart_colon hColon] at hWhole
        cases hWhole
      exact ⟨_, hLoop.trans (scanLoop_putBack (scanRound_other hDigit hColon) _ left)⟩

/-- Eight groups with their ":", one more at the start and one for the "::". -/
theorem length_text_le (p : Progress) : p.text.length ≤ 42 := by
  have hBefore := HexGroup.length_ended_le p.before
  have hAfter := HexGroup.length_ended_le p.after
  have hFew := p.few
  have hGroups := p.le_eight
  have hLead : (if p.lead then [colon] else [] : List UInt8).length ≤ 1 := by
    split <;> simp
  have hDouble : (if p.double then colon :: HexGroup.ended p.after else []).length ≤
      1 + 5 * p.after.length := by
    split
    · rw [List.length_cons]
      omega
    · exact Nat.zero_le _
  rw [List.length_append] at hGroups
  simp only [text, List.length_append, List.length_map]
  by_cases hDigits : p.digits = []
  · rw [hDigits, List.length_nil]
    omega
  · have hRoom := p.lt_eight hDigits
    rw [List.length_append] at hRoom
    omega

/-- The loop ends after so many characters whatever they are. -/
theorem scanLoop_takes_few (p : Progress) {taken rest : List UInt8} {e : ScanEnd}
    (hLoop : scanLoop p.scan taken rest = some e) :
    rest.length + p.text.length ≤ e.input.rest.length + 43 := by
  have hText := p.length_text_le
  induction rest generalizing p taken with
  | nil =>
      rw [List.length_nil]
      omega
  | cons c rest ih =>
      rcases scanRound_spec p c with ⟨hRound, -⟩ | hRound | ⟨p', hRound, hMore, -⟩
      · rw [scanLoop_putBack hRound] at hLoop
        obtain rfl := Option.some.inj hLoop
        show _ ≤ (c :: rest).length + 43
        omega
      · rw [scanLoop_returnZero hRound] at hLoop
        obtain rfl := Option.some.inj hLoop
        show (c :: rest).length + _ ≤ rest.length + 43
        rw [List.length_cons]
        omega
      · rw [scanLoop_next hRound] at hLoop
        have hRest := ih p' hLoop p'.length_text_le
        rw [hMore, List.length_append] at hRest
        rw [List.length_cons]
        simpa [Nat.add_assoc, Nat.add_comm, Nat.add_left_comm] using hRest

/-- After the loop the last group has ended too. -/
def finish (p : Progress) : Progress := if h : p.digits ≠ [] then p.close h else p

theorem finish_of_digits {p : Progress} (h : p.digits ≠ []) : p.finish = p.close h := dif_pos h

theorem finish_of_nil {p : Progress} (h : p.digits = []) : p.finish = p :=
  dif_neg (not_not_intro h)

/-- The end of the loop opens no double colon. -/
theorem double_finish (p : Progress) : p.finish.double = p.double := by
  by_cases h : p.digits = []
  · rw [finish_of_nil h]
  · rw [finish_of_digits h]
    rfl

theorem before_finish {p : Progress} (hDouble : p.double = true) :
    p.finish.before = p.before := by
  by_cases h : p.digits = []
  · rw [finish_of_nil h]
  · rw [finish_of_digits h]
    exact if_pos hDouble

/-- The group at the end is stored, if there are digits. -/
theorem storeLast_scan (p : Progress) :
    ∃ s, p.scan.storeLast = some s ∧ s.hexQuads = .ofList p.finish.quads ∧
      s.nHexQuads = p.finish.quads.length ∧ s.doubleColonIndex = p.finish.doubleColonIndex := by
  by_cases h : p.digits = []
  · rw [finish_of_nil h]
    refine ⟨p.scan, if_neg ?_, rfl, rfl, rfl⟩
    show ¬ 0 < p.digits.length
    rw [h]
    exact Nat.lt_irrefl 0
  · have hRoom : p.quads.length < 8 := p.nHexQuads_lt.mpr (p.lt_eight h)
    have hQuad : (UInt64.ofNat (HexGroup.extend 0 p.digits)).toUInt16 = (p.group h).quad :=
      toUInt16_number (p.group h)
    have hPos : 0 < p.scan.nHexDigits := List.length_pos_of_ne_nil h
    rw [finish_of_digits h, quads_close, doubleColonIndex_close, Scan.storeLast, if_pos hPos,
      Scan.storeQuad_ofList p.quads rfl rfl hRoom, ← hQuad, List.length_append]
    exact ⟨_, rfl, rfl, rfl, rfl⟩

/-- The address that is stored, the "::" expanded. -/
def address (p : Progress) : List UInt16 :=
  if p.double then
    p.before.map HexGroup.quad ++ List.replicate (8 - p.groups.length) 0 ++
      p.after.map HexGroup.quad
  else p.quads

/-- Enough for an address. -/
def Whole (p : Progress) : Prop := p.double = true ∨ p.finish.groups.length = 8

/-- A double colon fills the address up to eight groups. -/
theorem length_address (p : Progress) (hDouble : p.double = true) : p.address.length = 8 := by
  have hLe := p.le_eight
  rw [List.length_append] at hLe
  rw [address, if_pos hDouble, groups]
  simp only [List.length_append, List.length_map, List.length_replicate]
  omega

/-- What the parser returns after the loop. -/
theorem unformatIp6Address_of_scan (host : ByteOrder) {p : Progress} {taken rest : List UInt8}
    {input : UnformatInput} (result : Ip6Address)
    (hLoop : scanLoop {} taken rest = some (.done p.scan input)) :
    (¬ p.Whole ∧
        unformatIp6Address host ⟨taken, rest⟩ result = some ⟨false, input, result⟩) ∨
      ∃ address, p.Whole ∧
        unformatIp6Address host ⟨taken, rest⟩ result = some ⟨true, input, address⟩ ∧
        address.asU8 host = p.finish.address.flatMap ByteOrder.big.bytes := by
  obtain ⟨s, hStore, hQuads, hCount, hIndex⟩ := storeLast_scan p
  rcases Bool.eq_false_or_eq_true p.finish.double with hDouble | hDouble
  · refine .inr ?_
    have hHere : s.doubleColonIndex = (p.finish.before.map HexGroup.quad).length := by
      rw [hIndex, doubleColonIndex, if_pos hDouble, List.length_map]
    have hSplit : p.finish.quads =
        p.finish.before.map HexGroup.quad ++ p.finish.after.map HexGroup.quad := List.map_append
    have hExpand := Scan.expand_ofList (s := s) (hQuads.trans (congrArg _ hSplit))
      (hCount.trans (congrArg _ hSplit)) hHere
      (by rw [List.length_map]; exact p.finish.before_lt hDouble)
      (by rw [← hSplit, length_quads]; exact p.finish.le_eight)
    have hAddress : p.finish.address = p.finish.before.map HexGroup.quad ++
        List.replicate (8 - (p.finish.before.map HexGroup.quad ++
          p.finish.after.map HexGroup.quad).length) 0 ++ p.finish.after.map HexGroup.quad := by
      rw [address, if_pos hDouble, ← hSplit, length_quads]
    rw [← hAddress] at hExpand
    obtain ⟨address, hRun, hBytes⟩ := unformatIp6Address_of_done host result hLoop hStore hExpand
      rfl rfl (p.finish.length_address hDouble)
    exact ⟨address, .inl ((double_finish p).symm.trans hDouble), hRun, hBytes⟩
  · have hNone : s.doubleColonIndex = 8 := by
      rw [hIndex, doubleColonIndex, hDouble, if_neg Bool.false_ne_true]
    have hExpand : s.expand = some s := by
      rw [Scan.expand, hNone, if_neg (Nat.lt_irrefl 8)]
    by_cases hEight : p.finish.groups.length = 8
    · have hAddress : p.finish.address = p.finish.quads := by
        rw [address, hDouble, if_neg Bool.false_ne_true]
      have hAll : p.finish.quads.length = 8 := (length_quads _).trans hEight
      rw [hAll] at hCount
      obtain ⟨address, hRun, hBytes⟩ := unformatIp6Address_of_done host result hLoop hStore hExpand
        hQuads hCount hAll
      exact .inr ⟨address, .inr hEight, hRun, hAddress ▸ hBytes⟩
    · refine .inl ⟨?_, ?_⟩
      · rw [Whole, not_or, ← double_finish, hDouble]
        exact ⟨Bool.false_ne_true, hEight⟩
      · have hFew : s.nHexQuads < 8 := by
          have hLe : p.finish.groups.length ≤ 8 := p.finish.le_eight
          rw [hCount, length_quads]
          omega
        show (scanLoop {} taken rest).bind _ = _
        rw [hLoop]
        show p.scan.storeLast.bind _ = _
        rw [hStore]
        show s.expand.bind _ = _
        rw [hExpand]
        show (if s.nHexQuads < 8 then _ else _) = _
        rw [if_pos hFew]

/-- The "::" and what is in front of it. -/
theorem text_double {p : Progress} (hDouble : p.double = true) (hStart : ¬ StrayStart p.text) :
    p.text = HexGroup.join p.before ++ [colon, colon] ++
      (HexGroup.ended p.after ++ p.digits.map HexDigit.char) := by
  have hText : p.text = (if p.lead then [colon] else []) ++ HexGroup.ended p.before ++
      colon :: (HexGroup.ended p.after ++ p.digits.map HexDigit.char) := by
    rw [text, if_pos hDouble, List.append_assoc]
    rfl
  by_cases hBefore : p.before = []
  · have hLead : p.lead = true := (p.opened hDouble).resolve_right (not_not_intro hBefore)
    rw [hText, hLead, hBefore]
    rfl
  · cases hLead : p.lead with
    | true =>
        rw [hText, hLead, if_pos rfl, List.append_assoc] at hStart
        exact absurd (HexGroup.strayStart_ended hBefore _) hStart
    | false =>
        rw [hText, hLead, ← HexGroup.join_colon hBefore, if_neg Bool.false_ne_true]
        simp only [List.nil_append, List.append_assoc, List.cons_append]

/-- What follows the "::". -/
theorem text_finish {p : Progress} (hDouble : p.double = true) (first : List UInt8)
    (hEnd : ¬ StrayEnd (first ++ (HexGroup.ended p.after ++ p.digits.map HexDigit.char))) :
    HexGroup.ended p.after ++ p.digits.map HexDigit.char = HexGroup.join p.finish.after := by
  by_cases hDigits : p.digits = []
  · rw [finish_of_nil hDigits]
    rw [hDigits, List.map_nil, List.append_nil] at hEnd ⊢
    by_cases hAfter : p.after = []
    · rw [hAfter]
      rfl
    · exact absurd (HexGroup.strayEnd_ended hAfter first) hEnd
  · have hLast : p.finish.after = p.after ++ [p.group hDigits] := by
      rw [finish_of_digits hDigits]
      exact if_pos hDouble
    rw [hLast, HexGroup.join_concat]
    rfl

/-- Eight groups and no "::". -/
theorem text_single {p : Progress} (hDouble : p.double = false)
    (hEight : p.finish.groups.length = 8) (hStart : ¬ StrayStart p.text)
    (hEnd : ¬ StrayEnd p.text) : p.text = HexGroup.join p.finish.groups := by
  have hText : p.text = (if p.lead then [colon] else []) ++
      (HexGroup.ended p.before ++ p.digits.map HexDigit.char) := by
    rw [text, hDouble, if_neg Bool.false_ne_true, List.append_nil, List.append_assoc]
  have hGroups : p.groups = p.before := by
    rw [groups, p.after_eq hDouble, List.append_nil]
  by_cases hDigits : p.digits = []
  · rw [finish_of_nil hDigits, hGroups] at hEight
    rw [hText, hDigits, List.map_nil, List.append_nil] at hEnd
    exact absurd (HexGroup.strayEnd_ended (List.ne_nil_of_length_pos (by omega)) _) hEnd
  · rw [finish_of_digits hDigits, groups_close, hGroups, List.length_append] at hEight
    have hLead : p.lead = false := by
      by_contra hLead
      rw [Bool.not_eq_false] at hLead
      have hBefore : p.before ≠ [] := by
        rintro hNil
        rw [hNil] at hEight
        exact absurd hEight (by simp)
      rw [hText, hLead, if_pos rfl] at hStart
      exact absurd (HexGroup.strayStart_ended hBefore _) hStart
    rw [finish_of_digits hDigits, groups_close, hGroups, HexGroup.join_concat, hText, hLead]
    rfl

/-- A text without the three is one of an address, and the one that is
stored. -/
theorem exists_text {p : Progress} (hAll : p.Whole) (hRegular : Regular p.text) :
    ∃ t : Ip6Text, t.text = p.text ∧ t.quads = p.finish.address := by
  obtain ⟨hStart, hEnd, hOver⟩ := hRegular
  rcases Bool.eq_false_or_eq_true p.double with hDouble | hDouble
  · have hText := text_double hDouble hStart
    rw [text_finish hDouble (HexGroup.join p.before ++ [colon, colon]) (hText ▸ hEnd)] at hText
    have hBefore := before_finish hDouble
    have hShort : p.finish.before.length + p.finish.after.length ≤ 7 := by
      have hLe := p.finish.le_eight
      rw [List.length_append] at hLe
      by_contra hEight
      refine hOver ⟨⟨HexGroup.join p.before, HexGroup.join p.finish.after, hText.symm⟩, ?_⟩
      rw [hText, List.append_assoc]
      show (words isColon (HexGroup.join p.before ++
        colon :: colon :: HexGroup.join p.finish.after)).length = 8
      rw [words_append_cons _ _ isColon_colon, words_colon, HexGroup.words_join,
        HexGroup.words_join, List.length_append, List.length_map, List.length_map, ← hBefore]
      omega
    refine ⟨.compressed p.finish.before p.finish.after hShort, ?_, ?_⟩
    · rw [hText, Ip6Text.text, hBefore]
    · rw [Ip6Text.quads, address, if_pos ((double_finish p).trans hDouble), groups,
        List.length_append]
  · have hEight : p.finish.groups.length = 8 :=
      hAll.resolve_left (by rw [hDouble]; exact Bool.false_ne_true)
    refine ⟨.full p.finish.groups hEight, (text_single hDouble hEight hStart hEnd).symm, ?_⟩
    rw [Ip6Text.quads, address, double_finish, hDouble, if_neg Bool.false_ne_true]
    rfl

end Progress

/-- What the parser has taken when it returns 1; else it has stored nothing. -/
theorem unformatIp6Address_spec (host : ByteOrder) (input : UnformatInput) (result : Ip6Address) :
    ∃ out, unformatIp6Address host input result = some out ∧
      (out.ret = false ∧ out.result = result ∨
        out.ret = true ∧ ∃ p : Progress, p.Whole ∧ p.text = addressPart 0 input.rest ∧
          input.rest = p.text ++ out.input.rest ∧
          out.input.taken = p.text.reverse ++ input.taken ∧
          out.result.asU8 host = p.finish.address.flatMap ByteOrder.big.bytes) := by
  obtain ⟨taken, rest⟩ := input
  rcases Progress.scanLoop_spec .start taken rest with
    ⟨input, hLoop⟩ | ⟨p, left, hLoop, hText, hLeft⟩
  · refine ⟨⟨false, input, result⟩, ?_, .inl ⟨rfl, rfl⟩⟩
    show (scanLoop Progress.start.scan taken rest).bind _ = _
    rw [hLoop]
    rfl
  · have hPart : p.text = addressPart 0 rest := hText
    rcases Progress.unformatIp6Address_of_scan host result hLoop with
      ⟨-, hZero⟩ | ⟨address, hWhole, hStored, hBytes⟩
    · exact ⟨_, hZero, .inl ⟨rfl, rfl⟩⟩
    · refine ⟨_, hStored, .inr ⟨rfl, p, hWhole, hPart, ?_, ?_, hBytes⟩⟩
      · rw [hPart]
        exact hLeft.symm
      · rw [hPart]
        rfl

/-- The parser returns 1 on every text of this form, and stores its address. -/
theorem unformatIp6Address_whole (host : ByteOrder) {p : Progress} (hWhole : p.Whole)
    {input : UnformatInput} (hText : p.text = addressPart 0 input.rest) (result : Ip6Address) :
    ∃ out, unformatIp6Address host input result = some out ∧ out.ret = true ∧
      out.result.asU8 host = p.finish.address.flatMap ByteOrder.big.bytes := by
  obtain ⟨left, hLoop⟩ := p.scanLoop_addressPart hText input.taken
  rcases Progress.unformatIp6Address_of_scan host result hLoop with
    ⟨hPart, -⟩ | ⟨address, -, hRun, hBytes⟩
  · exact absurd hWhole hPart
  · exact ⟨_, hRun, rfl, hBytes⟩

/-- The parser takes no more characters than this, whatever follows them. -/
theorem unformatIp6Address_takes_few {host : ByteOrder} {input : UnformatInput}
    {result : Ip6Address} {out : Unformatted Ip6Address}
    (hRun : unformatIp6Address host input result = some out) :
    input.rest.length ≤ out.input.rest.length + 43 := by
  obtain ⟨e, hLoop, hRest⟩ := Option.bind_eq_some_iff.mp hRun
  have hFew : input.rest.length ≤ e.input.rest.length + 43 :=
    Progress.scanLoop_takes_few .start hLoop
  cases e with
  | returnZero left =>
      obtain rfl := Option.some.inj hRest
      exact hFew
  | done s left =>
      obtain ⟨stored, -, hRest⟩ := Option.bind_eq_some_iff.mp hRest
      obtain ⟨expanded, -, hRest⟩ := Option.bind_eq_some_iff.mp hRest
      split_ifs at hRest
      · obtain rfl := Option.some.inj hRest
        exact hFew
      · obtain ⟨address, -, hOut⟩ := Option.bind_eq_some_iff.mp hRest
        obtain rfl := Option.some.inj hOut
        exact hFew

/-- Where the parser returns 1, what it took is a text of the address stored,
unless a colon is stray at either end or "::" stands among eight groups. -/
theorem unformatIp6Address_sound_iff (host : ByteOrder) (input : UnformatInput)
    (result : Ip6Address) (out : Unformatted Ip6Address)
    (hRun : unformatIp6Address host input result = some out) (hOne : out.ret = true) :
    (∃ t : Ip6Text, input.rest = t.text ++ out.input.rest ∧
        out.input.taken = t.text.reverse ++ input.taken ∧
        out.result.asU8 host = t.quads.flatMap ByteOrder.big.bytes) ↔
      Regular (addressPart 0 input.rest) := by
  obtain ⟨out', hSpec, hCases⟩ := unformatIp6Address_spec host input result
  obtain rfl : out' = out := Option.some.inj (hSpec.symm.trans hRun)
  rcases hCases with ⟨hZero, -⟩ | ⟨-, p, hWhole, hPart, hRest, hTaken, hBytes⟩
  · exact absurd (hZero.symm.trans hOne) Bool.false_ne_true
  · constructor
    · rintro ⟨t, hText, -, -⟩
      have hSame : p.text = t.text := List.append_cancel_right (hRest.symm.trans hText)
      rw [← hPart, hSame]
      exact t.regular
    · intro hRegular
      obtain ⟨t, hText, hQuads⟩ := p.exists_text hWhole (hPart ▸ hRegular)
      refine ⟨t, ?_, ?_, ?_⟩
      · rw [hText, ← hRest]
      · rw [hText, hTaken]
      · rw [hQuads, hBytes]

/-- The text "::1" before "/7". -/
theorem unformatIp6Address_sound_iff_loopback :
    Regular (addressPart 0 ("::1/7".toList.map Char.toUInt8)) ∧
      ∃ out, unformatIp6Address .little ⟨[], "::1/7".toList.map Char.toUInt8⟩ ⟨fun _ => 0⟩ =
          some out ∧ out.ret = true ∧
        ∃ t : Ip6Text, "::1/7".toList.map Char.toUInt8 = t.text ++ out.input.rest ∧
          out.input.taken = t.text.reverse ++ [] ∧
          out.result.asU8 .little = t.quads.flatMap ByteOrder.big.bytes := by
  have hRegular : Regular (addressPart 0 ("::1/7".toList.map Char.toUInt8)) := by decide +kernel
  have hRet : (unformatIp6Address .little ⟨[], "::1/7".toList.map Char.toUInt8⟩
      ⟨fun _ => 0⟩).map Unformatted.ret = some true := by decide +kernel
  obtain ⟨out, hRun, hOne⟩ := Option.map_eq_some_iff.mp hRet
  exact ⟨hRegular, out, hRun, hOne,
    (unformatIp6Address_sound_iff .little _ _ out hRun hOne).mpr hRegular⟩

/-- The whole text is taken for an address, and it is none. -/
def AcceptedWrongly (text : String) : Prop :=
  ∃ out, unformatIp6Address .little ⟨[], text.toList.map Char.toUInt8⟩ ⟨fun _ => 0⟩ = some out ∧
    out.ret = true ∧ out.input.rest = [] ∧
      ¬ ∃ t : Ip6Text, text.toList.map Char.toUInt8 = t.text ++ out.input.rest

theorem acceptedWrongly_of_not_regular {text : String}
    (hRet : (unformatIp6Address .little ⟨[], text.toList.map Char.toUInt8⟩ ⟨fun _ => 0⟩).map
      (fun out => (out.ret, out.input.rest)) = some (true, []))
    (hIrregular : ¬ Regular (text.toList.map Char.toUInt8)) : AcceptedWrongly text := by
  obtain ⟨out, hRun, hOut⟩ := Option.map_eq_some_iff.mp hRet
  obtain ⟨hOne, hLeft⟩ := Prod.mk.inj hOut
  refine ⟨out, hRun, hOne, hLeft, ?_⟩
  rintro ⟨t, hTaken⟩
  rw [hLeft, List.append_nil] at hTaken
  exact hIrregular (hTaken ▸ t.regular)

/-- A colon too many at the start, one at the end, and a "::" for no group. -/
theorem unformatIp6Address_accepts_irregular :
    AcceptedWrongly ":1:2:3:4:5:6:7:8" ∧ AcceptedWrongly "1:2:3:4:5:6:7:8:" ∧
      AcceptedWrongly "1:2:3:4::5:6:7:8" :=
  ⟨acceptedWrongly_of_not_regular (by decide +kernel) (by decide +kernel),
    acceptedWrongly_of_not_regular (by decide +kernel) (by decide +kernel),
    acceptedWrongly_of_not_regular (by decide +kernel) (by decide +kernel)⟩

end DpdkPerf.UdpEcho
