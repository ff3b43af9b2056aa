import Mathlib.Data.List.Basic

/-! The options of a command line, as `getopt` finds them: in clusters behind a
dash, with the argument of an option in the rest of its cluster or in the word
after it. Words that are no options may stand between them, as `POSIXLY_CORRECT`
is not set. -/
namespace DpdkPerf

/-- What a call of `getopt` returns. -/
inductive Opt where
  | plain (name : Char)
  | withArgument (name : Char) (optarg : List Char)
  /-- A `?`, with the character in `optopt`. -/
  | invalid (optopt : Char)
  deriving DecidableEq, Repr

/-- What all calls find, and the words from `optind` on. -/
structure CommandLine where
  options : List Opt
  operands : List (List Char)
  deriving DecidableEq, Repr

/-- The options of a cluster, and the last one if the next word is its
argument. `takes` tells which characters are options, and which of these have
an argument. -/
def cluster (takes : Char → Option Bool) : List Char → List Opt × Option Char
  | [] => ([], none)
  | c :: rest =>
      match takes c with
      | none => (.invalid c :: (cluster takes rest).1, (cluster takes rest).2)
      | some false => (.plain c :: (cluster takes rest).1, (cluster takes rest).2)
      | some true => if rest = [] then ([], some c) else ([.withArgument c rest], none)

/-- The words that are left, with an option that waits for its argument. -/
def getopt (takes : Char → Option Bool) : Option Char → List (List Char) → CommandLine
  | none, [] => ⟨[], []⟩
  | some c, [] => ⟨[.invalid c], []⟩
  | some c, word :: words =>
      let r := getopt takes none words
      ⟨.withArgument c word :: r.options, r.operands⟩
  | none, word :: words =>
      match word with
      | ['-', '-'] => ⟨[], words⟩
      | '-' :: c :: rest =>
          let (options, waits) := cluster takes (c :: rest)
          let r := getopt takes waits words
          ⟨options ++ r.options, r.operands⟩
      | _ =>
          let r := getopt takes none words
          ⟨r.options, word :: r.operands⟩

/-- A word that is no option. A dash alone is none. -/
def IsOperand (word : List Char) : Prop := word = ['-'] ∨ word.head? ≠ some '-'

/-- An option that there is. -/
def Opt.Known (takes : Char → Option Bool) : Opt → Prop
  | plain name => takes name = some false
  | withArgument name _ => takes name = some true
  | invalid _ => False

/-- How a cluster is written: options without an argument, and then possibly
one with its argument, or one whose argument is the next word. -/
inductive WritesCluster (takes : Char → Option Bool) : List Char → List Opt → Option Char → Prop
  | nil : WritesCluster takes [] [] none
  | plain {name : Char} {rest : List Char} {options : List Opt} {waits : Option Char}
      (known : takes name = some false) (more : WritesCluster takes rest options waits) :
      WritesCluster takes (name :: rest) (.plain name :: options) waits
  | attached {name : Char} {optarg : List Char} (known : takes name = some true)
      (ne_nil : optarg ≠ []) :
      WritesCluster takes (name :: optarg) [.withArgument name optarg] none
  | waiting {name : Char} (known : takes name = some true) :
      WritesCluster takes [name] [] (some name)

/-- How a command line with these options and operands is written. -/
inductive Writes (takes : Char → Option Bool) :
    List (List Char) → List Opt → List (List Char) → Prop
  | nil : Writes takes [] [] []
  | dashes (operands : List (List Char)) : Writes takes (['-', '-'] :: operands) [] operands
  | operand {word : List Char} {words : List (List Char)} {options : List Opt}
      {operands : List (List Char)} (isOperand : IsOperand word)
      (more : Writes takes words options operands) :
      Writes takes (word :: words) options (word :: operands)
  | cluster {chars : List Char} {words : List (List Char)} {first options : List Opt}
      {operands : List (List Char)} (ne_nil : chars ≠ [])
      (written : WritesCluster takes chars first none)
      (more : Writes takes words options operands) :
      Writes takes (('-' :: chars) :: words) (first ++ options) operands
  | argument {chars optarg : List Char} {words : List (List Char)} {first options : List Opt}
      {name : Char} {operands : List (List Char)}
      (written : WritesCluster takes chars first (some name))
      (more : Writes takes words options operands) :
      Writes takes (('-' :: chars) :: optarg :: words)
        (first ++ .withArgument name optarg :: options) operands

variable {takes : Char → Option Bool} {words : List (List Char)} {options : List Opt}
  {operands : List (List Char)}

/-- Nothing in a command line is taken for an unknown option. -/
def NoneInvalid (options : List Opt) : Prop := ∀ c, .invalid c ∉ options

theorem noneInvalid_cons {o : Opt} :
    NoneInvalid (o :: options) ↔ (∀ c, o ≠ .invalid c) ∧ NoneInvalid options := by
  unfold NoneInvalid
  simp only [List.mem_cons, not_or, forall_and, ne_comm]

theorem noneInvalid_append {more : List Opt} :
    NoneInvalid (options ++ more) ↔ NoneInvalid options ∧ NoneInvalid more := by
  unfold NoneInvalid
  simp only [List.mem_append, not_or, forall_and]

/-- A cluster without an invalid character is written as the grammar has it. -/
theorem cluster_writes {chars : List Char} (h : NoneInvalid (cluster takes chars).1) :
    WritesCluster takes chars (cluster takes chars).1 (cluster takes chars).2 := by
  induction chars with
  | nil => exact .nil
  | cons c rest ih =>
      unfold cluster at h ⊢
      split at h
      · exact absurd rfl ((noneInvalid_cons.mp h).1 c)
      · exact .plain ‹_› (ih (noneInvalid_cons.mp h).2)
      · by_cases hRest : rest = []
        · rw [if_pos hRest, hRest]
          exact .waiting ‹_›
        · rw [if_neg hRest]
          exact .attached ‹_› hRest

/-- What the grammar writes as a cluster is read as just that. -/
theorem WritesCluster.cluster_eq {chars : List Char} {waits : Option Char}
    (h : WritesCluster takes chars options waits) :
    cluster takes chars = (options, waits) ∧ NoneInvalid options ∧
      ∀ c ∈ chars.head?, takes c ≠ none := by
  induction h with
  | nil => exact ⟨rfl, nofun, nofun⟩
  | plain known _ ih =>
      rw [cluster, known, ih.1]
      exact ⟨rfl, noneInvalid_cons.mpr ⟨nofun, ih.2.1⟩, by simp [known]⟩
  | attached known ne_nil =>
      rw [cluster, known]
      exact ⟨if_neg ne_nil, noneInvalid_cons.mpr ⟨nofun, nofun⟩, by simp [known]⟩
  | waiting known =>
      rw [cluster, known]
      exact ⟨if_pos rfl, nofun, by simp [known]⟩

/-- A word ends the options, is a cluster, or is an operand. -/
theorem word_cases (word : List Char) :
    word = ['-', '-'] ∨ (∃ chars, chars ≠ [] ∧ chars ≠ ['-'] ∧ word = '-' :: chars) ∨
      IsOperand word := by
  by_cases hDash : word.head? = some '-'
  · obtain ⟨chars, rfl⟩ := List.head?_eq_some_iff.mp hDash
    by_cases hNil : chars = []
    · exact .inr (.inr (.inl (hNil ▸ rfl)))
    by_cases hDashes : chars = ['-']
    · exact .inl (hDashes ▸ rfl)
    · exact .inr (.inl ⟨chars, hNil, hDashes, rfl⟩)
  · exact .inr (.inr (.inr hDash))

/-- A cluster is read first, and what it waits for is in the next word. -/
theorem getopt_cluster {chars : List Char} (hNil : chars ≠ []) (hDashes : chars ≠ ['-']) :
    getopt takes none (('-' :: chars) :: words) =
      ⟨(cluster takes chars).1 ++ (getopt takes (cluster takes chars).2 words).options,
        (getopt takes (cluster takes chars).2 words).operands⟩ := by
  cases chars with
  | nil => exact absurd rfl hNil
  | cons c rest =>
      rw [getopt]
      rintro ⟨⟩ ⟨⟩
      exact hDashes rfl

/-- An operand is passed over and kept. -/
theorem getopt_operand {word : List Char} (h : IsOperand word) :
    getopt takes none (word :: words) =
      ⟨(getopt takes none words).options, word :: (getopt takes none words).operands⟩ := by
  obtain rfl | hHead := h
  · rfl
  · cases word with
    | nil => rfl
    | cons c rest =>
        have hc : c ≠ '-' := fun hSame => hHead (congrArg some hSame)
        rw [getopt]
        · rintro ⟨⟩
          exact hc rfl
        · rintro c' rest' ⟨⟩
          exact hc rfl

/-- An option that waits for its argument is in a cluster. -/
theorem WritesCluster.ne_nil {chars : List Char} {name : Char}
    (h : WritesCluster takes chars options (some name)) : chars ≠ [] := by
  cases h with
  | plain => exact List.cons_ne_nil _ _
  | waiting => exact List.cons_ne_nil _ _

/-- The words behind a cluster, with the argument it waits for in front. -/
def WritesAfter (takes : Char → Option Bool) (words : List (List Char)) (line : CommandLine) :
    Option Char → Prop
  | none => Writes takes words line.options line.operands
  | some name => ∃ optarg rest options, words = optarg :: rest ∧
      line.options = .withArgument name optarg :: options ∧ Writes takes rest options line.operands

/-- What is found is written so. -/
theorem getopt_writes (waits : Option Char) (words : List (List Char))
    (h : NoneInvalid (getopt takes waits words).options) :
    WritesAfter takes words (getopt takes waits words) waits := by
  induction words generalizing waits with
  | nil =>
      cases waits with
      | none => exact .nil
      | some c => exact absurd rfl ((noneInvalid_cons.mp h).1 c)
  | cons word words ih =>
      cases waits with
      | some c => exact ⟨word, words, _, rfl, rfl, ih none (noneInvalid_cons.mp h).2⟩
      | none =>
          obtain rfl | ⟨chars, hNil, hDashes, rfl⟩ | hOperand := word_cases word
          · exact .dashes words
          · rw [getopt_cluster hNil hDashes] at h ⊢
            obtain ⟨hFirst, hMore⟩ := noneInvalid_append.mp h
            have hCluster := cluster_writes hFirst
            have hRest := ih _ hMore
            cases hWaits : (cluster takes chars).2 with
            | none =>
                rw [hWaits] at hCluster hRest
                exact .cluster hNil hCluster hRest
            | some name =>
                rw [hWaits] at hCluster hRest
                obtain ⟨optarg, rest, options, rfl, hOptions, hWrites⟩ := hRest
                rw [hOptions]
                exact .argument hCluster hWrites
          · rw [getopt_operand hOperand] at h ⊢
            exact .operand hOperand (ih none h)

/-- What is written so is found. -/
theorem Writes.getopt_eq (hDash : takes '-' = none) (h : Writes takes words options operands) :
    getopt takes none words = ⟨options, operands⟩ ∧ NoneInvalid options := by
  have hNotDashes {chars : List Char} {options : List Opt} {waits : Option Char}
      (hCluster : WritesCluster takes chars options waits) : chars ≠ ['-'] := by
    rintro rfl
    exact hCluster.cluster_eq.2.2 '-' rfl hDash
  induction h with
  | nil => exact ⟨rfl, nofun⟩
  | dashes operands => exact ⟨rfl, nofun⟩
  | operand isOperand _ ih =>
      rw [getopt_operand isOperand, ih.1]
      exact ⟨rfl, ih.2⟩
  | cluster ne_nil written _ ih =>
      obtain ⟨hCluster, hFirst, -⟩ := written.cluster_eq
      rw [getopt_cluster ne_nil (hNotDashes written), hCluster, ih.1]
      exact ⟨rfl, noneInvalid_append.mpr ⟨hFirst, ih.2⟩⟩
  | argument written _ ih =>
      obtain ⟨hCluster, hFirst, -⟩ := written.cluster_eq
      have hNil := written.ne_nil
      rw [getopt_cluster hNil (hNotDashes written), hCluster, getopt, ih.1]
      exact ⟨rfl, noneInvalid_append.mpr ⟨hFirst, noneInvalid_cons.mpr ⟨nofun, ih.2⟩⟩⟩

/-- An option without an argument may be put in front, or left out. -/
theorem Writes.plain {p : Prop} [Decidable p] {name : Char} (known : takes name = some false)
    (h : Writes takes words options operands) :
    Writes takes ((if p then [['-', name]] else []) ++ words)
      ((if p then [.plain name] else []) ++ options) operands := by
  split
  · exact .cluster (List.cons_ne_nil name []) (.plain known .nil) h
  · exact h

theorem Writes.withArgument {p : Prop} [Decidable p] {name : Char}
    (known : takes name = some true) (optarg : List Char)
    (h : Writes takes words options operands) :
    Writes takes ((if p then [['-', name], optarg] else []) ++ words)
      ((if p then [.withArgument name optarg] else []) ++ options) operands := by
  split
  · exact .argument (.waiting known) h
  · exact h

/-- The grammar of clusters has no unknown option. -/
theorem WritesCluster.known {chars : List Char} {waits : Option Char}
    (h : WritesCluster takes chars options waits) :
    (∀ o ∈ options, o.Known takes) ∧ ∀ name ∈ waits, takes name = some true := by
  induction h with
  | nil => exact ⟨nofun, nofun⟩
  | plain known _ ih => exact ⟨List.forall_mem_cons.mpr ⟨known, ih.1⟩, ih.2⟩
  | attached known _ => exact ⟨List.forall_mem_cons.mpr ⟨known, nofun⟩, nofun⟩
  | waiting known => exact ⟨nofun, fun name hName => Option.some.inj hName ▸ known⟩

theorem Writes.known (h : Writes takes words options operands) :
    ∀ o ∈ options, o.Known takes := by
  induction h with
  | nil => exact nofun
  | dashes operands => exact nofun
  | operand _ _ ih => exact ih
  | cluster _ written _ ih => exact List.forall_mem_append.mpr ⟨written.known.1, ih⟩
  | argument written _ ih =>
      have hLast := written.known.2 _ rfl
      exact List.forall_mem_append.mpr ⟨written.known.1, List.forall_mem_cons.mpr ⟨hLast, ih⟩⟩

/-- `getopt` finds these options, all of them known, and these operands exactly
if the command line is written so. -/
theorem getopt_eq_iff (hDash : takes '-' = none) :
    getopt takes none words = ⟨options, operands⟩ ∧ NoneInvalid options ↔
      Writes takes words options operands := by
  constructor
  · rintro ⟨hGetopt, hNone⟩
    have hWrites : WritesAfter takes words (getopt takes none words) none := by
      refine getopt_writes none words ?_
      rw [hGetopt]
      exact hNone
    rw [hGetopt] at hWrites
    exact hWrites
  · exact fun h => h.getopt_eq hDash

end DpdkPerf
