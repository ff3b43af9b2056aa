import Mathlib.Data.List.Basic

/-! Programs that make one call after another and end at the first call that is
refused. What is refused is told from the call, so the calls of such a program
can be listed before it runs. -/
namespace DpdkPerf

variable {C A E α β : Type} {refused : C → Prop} [DecidablePred refused]

/-- The calls up to the first that is refused. -/
def through (refused : C → Prop) [DecidablePred refused] : List C → List C
  | [] => []
  | c :: calls => if refused c then [c] else c :: through refused calls

/-- Nothing is called behind a refused call. -/
theorem through_append_of_refused {calls : List C} (more : List C)
    (h : ∃ c ∈ calls, refused c) : through refused (calls ++ more) = through refused calls := by
  induction calls with
  | nil =>
      obtain ⟨c, hMem, -⟩ := h
      exact absurd hMem List.not_mem_nil
  | cons c calls ih =>
      rw [List.cons_append, through, through]
      by_cases hc : refused c
      · rw [if_pos hc, if_pos hc]
      · have hRest : ∃ c ∈ calls, refused c := by
          obtain ⟨d, hMem, hd⟩ := h
          obtain rfl | hMem := List.mem_cons.mp hMem
          · exact absurd hd hc
          · exact ⟨d, hMem, hd⟩
        rw [if_neg hc, if_neg hc, ih hRest]

/-- Calls none of which is refused are all made. -/
theorem through_append_of_none {calls : List C} (more : List C) (h : ∀ c ∈ calls, ¬ refused c) :
    through refused (calls ++ more) = calls ++ through refused more := by
  induction calls with
  | nil => rfl
  | cons c calls ih =>
      rw [List.forall_mem_cons] at h
      rw [List.cons_append, through, if_neg h.1, ih h.2]
      rfl

/-- How a program ends that makes these calls and returns `a` if none of them is
refused. -/
def Climbs (refused : C → Prop) [DecidablePred refused] (program : EStateM E (List C) α)
    (calls : List C) (a : α) : Prop :=
  ∀ before,
    ((∀ c ∈ calls, ¬ refused c) ∧ program.run before = .ok a (before ++ calls)) ∨
    ((∃ c ∈ calls, refused c) ∧
      ∃ e, program.run before = .error e (before ++ through refused calls))

theorem climbs_pure (a : α) : Climbs refused (pure a : EStateM E (List C) α) [] a :=
  fun before => .inl ⟨nofun, by rw [List.append_nil]; rfl⟩

/-- Ladders compose: the second is climbed where the first is to its top. -/
theorem Climbs.bind {first : EStateM E (List C) α} {next : α → EStateM E (List C) β}
    {calls more : List C} {a : α} {b : β} (hFirst : Climbs refused first calls a)
    (hNext : Climbs refused (next a) more b) : Climbs refused (first >>= next) (calls ++ more) b := by
  intro before
  rw [EStateM.run_bind]
  obtain ⟨hNone, hRun⟩ | ⟨hRefused, e, hRun⟩ := hFirst before
  · rw [hRun]
    obtain ⟨hNoMore, hRest⟩ | ⟨⟨c, hMem, hc⟩, e, hRest⟩ := hNext (before ++ calls)
    · refine .inl ⟨List.forall_mem_append.mpr ⟨hNone, hNoMore⟩, ?_⟩
      rw [← List.append_assoc]
      exact hRest
    · refine .inr ⟨⟨c, List.mem_append_right _ hMem, hc⟩, e, ?_⟩
      rw [through_append_of_none more hNone, ← List.append_assoc]
      exact hRest
  · obtain ⟨c, hMem, hc⟩ := hRefused
    refine .inr ⟨⟨c, List.mem_append_left _ hMem, hc⟩, e, ?_⟩
    rw [hRun, through_append_of_refused more ⟨c, hMem, hc⟩]

def call (answer : C → A) (c : C) : EStateM E (List C) A := fun calls =>
  .ok (answer c) (calls ++ [c])

/-- A call whose result is looked at. -/
def checkedCall (answer : C → A) (c : C) (bad : A → Prop) [DecidablePred bad] (fail : A → E) :
    EStateM E (List C) A := do
  let a ← call answer c
  if bad a then throw (fail a) else pure a

theorem climbs_call (answer : C → A) {c : C} (h : ¬ refused c) :
    Climbs refused (call answer c : EStateM E (List C) A) [c] (answer c) :=
  fun _ => .inl ⟨List.forall_mem_cons.mpr ⟨h, nofun⟩, rfl⟩

/-- A checked call is refused just when its check fails. -/
theorem climbs_checkedCall (answer : C → A) {c : C} {bad : A → Prop} [DecidablePred bad]
    (fail : A → E) (h : refused c ↔ bad (answer c)) :
    Climbs refused (checkedCall answer c bad fail) [c] (answer c) := by
  intro before
  have hRun : (checkedCall answer c bad fail).run before =
      if bad (answer c) then .error (fail (answer c)) (before ++ [c])
      else .ok (answer c) (before ++ [c]) := by
    unfold checkedCall
    rw [EStateM.run_bind]
    show EStateM.run (ite _ _ _) _ = _
    split <;> rfl
  by_cases hc : refused c
  · refine .inr ⟨⟨c, List.mem_singleton_self c, hc⟩, fail (answer c), ?_⟩
    rw [hRun, if_pos (h.mp hc), through, if_pos hc]
  · refine .inl ⟨List.forall_mem_cons.mpr ⟨hc, nofun⟩, ?_⟩
    rw [hRun, if_neg fun hBad => hc (h.mpr hBad)]

/-- A part that is left out under some condition, and whose value is not used. -/
theorem Climbs.ite_bind {p : Prop} [Decidable p] {program : EStateM E (List C) α} {a d : α}
    {rest : EStateM E (List C) β} {calls more : List C} {b : β}
    (h : p → Climbs refused program calls a) (hRest : Climbs refused rest more b) :
    Climbs refused ((if p then program else pure d) >>= fun _ => rest)
      ((if p then calls else []) ++ more) b := by
  by_cases hp : p
  · rw [if_pos hp, if_pos hp]
    exact (h hp).bind hRest
  · rw [if_neg hp, if_neg hp]
    exact (climbs_pure d).bind hRest

end DpdkPerf
