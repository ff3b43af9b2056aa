import DpdkPerf.Machine.Handles
import DpdkPerf.Machine.Ladder

/-! What programs hold that take resources and give them back by their calls,
and that may leave a part of their work by a jump. `op` tells what a call does
with which resource. -/
namespace DpdkPerf

variable {H C A E α β : Type} [DecidableEq H] {op : C → Option (HandleOp H)}

/-- The calls since `before` keep to what is held, and end with it in `P`. -/
def Reaches (op : C → Option (HandleOp H)) (held : Finset H) (before after : List C)
    (P : Finset H → Prop) : Prop :=
  ∃ calls held', after = before ++ calls ∧ Leaves held (calls.filterMap op) held' ∧ P held'

/-- From what is held in `pre`, the program keeps to what is held, and ends with
it in `post` or jumps with it in `escape`. -/
def Tends (op : C → Option (HandleOp H)) (pre : Finset H → Prop)
    (program : EStateM E (List C) α) (post : α → Finset H → Prop)
    (escape : E → Finset H → Prop) : Prop :=
  ∀ before held, pre held → match program.run before with
    | .ok a after => Reaches op held before after (post a)
    | .error e after => Reaches op held before after (escape e)

section Reaches

variable {held : Finset H} {before mid after : List C} {P Q : Finset H → Prop}

theorem reaches_refl (h : P held) : Reaches op held before before P :=
  ⟨[], held, (List.append_nil before).symm, leaves_nil held, h⟩

/-- Two stretches of a run make one. -/
theorem Reaches.trans (h : Reaches op held before mid Q)
    (hMore : ∀ held', Q held' → Reaches op held' mid after P) : Reaches op held before after P := by
  obtain ⟨calls, held', rfl, hCalls, hQ⟩ := h
  obtain ⟨more, held'', rfl, hRest, hP⟩ := hMore held' hQ
  refine ⟨calls ++ more, held'', List.append_assoc _ _ _, ?_, hP⟩
  rw [List.filterMap_append]
  exact hCalls.append hRest

end Reaches

variable {pre pre' : Finset H → Prop} {post : α → Finset H → Prop} {post' : β → Finset H → Prop}
  {escape escape' : E → Finset H → Prop} {program : EStateM E (List C) α}
  {next : α → EStateM E (List C) β}

theorem tends_pure {a : α} (h : ∀ held, pre held → post a held) :
    Tends op pre (pure a) post escape :=
  fun _ held hPre => reaches_refl (h held hPre)

theorem tends_throw {e : E} (h : ∀ held, pre held → escape e held) :
    Tends op pre (throw e : EStateM E (List C) α) post escape :=
  fun _ held hPre => reaches_refl (h held hPre)

/-- A program that starts from what other calls reach. -/
theorem Tends.after {held : Finset H} {before mid : List C} (h : Tends op pre program post escape)
    (hBefore : Reaches op held before mid pre) :
    match program.run mid with
    | .ok a after => Reaches op held before after (post a)
    | .error e after => Reaches op held before after (escape e) := by
  have hRun := h mid
  split
  all_goals
    rename_i hEnd
    refine hBefore.trans fun held' hPre => ?_
    have hAfter := hRun held' hPre
    rwa [hEnd] at hAfter

/-- Less may be held to before, and less promised after. -/
theorem Tends.weaken {post' : α → Finset H → Prop} (h : Tends op pre program post escape)
    (hPre : ∀ held, pre' held → pre held) (hPost : ∀ a held, post a held → post' a held) :
    Tends op pre' program post' escape := by
  intro before held hPre'
  have hRun := h before held (hPre held hPre')
  split at hRun
  · obtain ⟨calls, held', hAfter, hLeaves, hEnd⟩ := hRun
    exact ⟨calls, held', hAfter, hLeaves, hPost _ held' hEnd⟩
  · exact hRun

/-- The second part starts with what the first has left. -/
theorem Tends.bind (h : Tends op pre program post escape)
    (hNext : ∀ a, Tends op (post a) (next a) post' escape) :
    Tends op pre (program >>= next) post' escape := by
  intro before held hPre
  have hFirst := h before held hPre
  rw [EStateM.run_bind]
  split at hFirst
  · rename_i a mid hRun
    rw [hRun]
    exact (hNext a).after hFirst
  · rename_i hRun
    rw [hRun]
    exact hFirst

/-- A jump is caught where it leads to. -/
theorem Tends.catch {handler : E → EStateM E (List C) α}
    (h : Tends op pre program post escape)
    (hHandler : ∀ e, Tends op (escape e) (handler e) post escape') :
    Tends op pre (tryCatch program handler) post escape' := by
  intro before held hPre
  have hFirst := h before held hPre
  have hCatch : (tryCatch program handler).run before = match program.run before with
      | .ok a after => .ok a after
      | .error e after => (handler e).run after := by
    show EStateM.tryCatch program handler before = _
    unfold EStateM.tryCatch EStateM.run
    cases program before <;> rfl
  rw [hCatch]
  split at hFirst
  · exact hFirst
  · exact (hHandler _).after hFirst

/-- A part that is run in one case only, and that jumps. -/
def check (bad : Prop) [Decidable bad] (handler : EStateM E (List C) Unit) :
    EStateM E (List C) Unit :=
  if bad then handler else pure ()

/-- A check whose handler always jumps: behind it the check has passed. -/
theorem tends_check {bad : Prop} [Decidable bad] {handler : EStateM E (List C) Unit}
    {rest : EStateM E (List C) β} (hBad : bad → Tends op pre handler (fun _ _ => False) escape)
    (hRest : ¬ bad → Tends op pre rest post' escape) :
    Tends op pre (check bad handler >>= fun _ => rest) post' escape := by
  unfold check
  by_cases h : bad
  · rw [if_pos h]
    exact (hBad h).bind fun _ _ _ hFalse => hFalse.elim
  · rw [if_neg h]
    have hNone : Tends op pre (pure () : EStateM E (List C) Unit) (fun _ => pre) escape :=
      tends_pure fun _ hPre => hPre
    exact hNone.bind fun _ => hRest h

/-- What is surely held and what may be held. -/
structure Span (H : Type) where
  sure : Finset H
  may : Finset H

def Span.Within (s : Span H) (held : Finset H) : Prop := s.sure ⊆ held ∧ held ⊆ s.may

section Span

variable {s s' : Span H} {held : Finset H} {o : HandleOp H}

omit [DecidableEq H] in
theorem Span.Within.mono (h : s.Within held) (hSure : s'.sure ⊆ s.sure) (hMay : s.may ⊆ s'.may) :
    s'.Within held :=
  ⟨hSure.trans h.1, h.2.trans hMay⟩

/-- A call is followed by what it leaves held. -/
theorem tends_call {answer : C → A} {c : C}
    {next : A → EStateM E (List C) β} (hOp : op c = some o)
    (hCall : ∀ held, pre held → ∃ held', Leaves held [o] held' ∧ pre' held')
    (hNext : Tends op pre' (next (answer c)) post' escape) :
    Tends op pre (call answer c >>= next) post' escape := by
  intro before held hPre
  obtain ⟨held', hLeaves, hAfter⟩ := hCall held hPre
  refine hNext.after ⟨[c], held', rfl, ?_, hAfter⟩
  rw [List.filterMap_cons_some hOp]
  exact hLeaves

/-- A call that is about nothing that is held. -/
theorem tends_callOther {answer : C → A} {c : C} {next : A → EStateM E (List C) β}
    (hOp : op c = none) (hNext : Tends op pre (next (answer c)) post' escape) :
    Tends op pre (call answer c >>= next) post' escape := by
  intro before held hPre
  refine hNext.after ⟨[c], held, rfl, ?_, hPre⟩
  rw [List.filterMap_cons_none hOp]
  exact leaves_nil held

section Calls

variable {answer : C → A} {c : C} {handle : H} {next : A → EStateM E (List C) β}

/-- What is certainly not held can be taken, and is held from then on. -/
theorem tends_acquire (hOp : op c = some (.acquire handle)) (hNew : handle ∉ s.may)
    (hNext : Tends op (Span.Within ⟨insert handle s.sure, insert handle s.may⟩)
      (next (answer c)) post' escape) :
    Tends op s.Within (call answer c >>= next) post' escape :=
  tends_call hOp (fun _ h => ⟨_, leaves_acquire fun hMem => hNew (h.2 hMem),
    Finset.insert_subset_insert _ h.1, Finset.insert_subset_insert _ h.2⟩) hNext

theorem tends_use (hOp : op c = some (.use handle)) (hHeld : handle ∈ s.sure)
    (hNext : Tends op s.Within (next (answer c)) post' escape) :
    Tends op s.Within (call answer c >>= next) post' escape :=
  tends_call hOp (fun _ h => ⟨_, leaves_use (h.1 hHeld), h⟩) hNext

/-- What is certainly held can be given back. -/
theorem tends_release (hOp : op c = some (.release handle)) (hHeld : handle ∈ s.sure)
    (hNext : Tends op (Span.Within ⟨s.sure.erase handle, s.may.erase handle⟩)
      (next (answer c)) post' escape) :
    Tends op s.Within (call answer c >>= next) post' escape :=
  tends_call hOp (fun _ h => ⟨_, leaves_release (h.1 hHeld),
    Finset.erase_subset_erase _ h.1, Finset.erase_subset_erase _ h.2⟩) hNext

/-- What is taken by a call only if it succeeds, and is looked at. -/
theorem tends_acquireChecked {bad : A → Prop} [DecidablePred bad]
    {handler : A → EStateM E (List C) Unit}
    (hOp : op c = if bad (answer c) then none else some (.acquire handle)) (hNew : handle ∉ s.may)
    (hBad : Tends op s.Within (handler (answer c)) (fun _ _ => False) escape)
    (hNext : Tends op (Span.Within ⟨insert handle s.sure, insert handle s.may⟩)
      (next (answer c)) post' escape) :
    Tends op s.Within (call answer c >>= fun a => check (bad a) (handler a) >>= fun _ => next a)
      post' escape := by
  by_cases h : bad (answer c)
  · rw [if_pos h] at hOp
    exact tends_callOther hOp (tends_check (fun _ => hBad) fun hNot => absurd h hNot)
  · rw [if_neg h] at hOp
    exact tends_acquire hOp hNew (tends_check (fun hIs => absurd hIs h) fun _ => hNext)

/-- What is taken by a call only if it succeeds, whether or not it does. -/
theorem tends_tryAcquire {p : Prop} [Decidable p]
    (hOp : op c = if p then none else some (.acquire handle)) (hNew : handle ∉ s.may)
    (hNext : Tends op (Span.Within ⟨s.sure, insert handle s.may⟩) (next (answer c)) post' escape) :
    Tends op s.Within (call answer c >>= next) post' escape := by
  by_cases h : p
  · rw [if_pos h] at hOp
    refine tends_callOther hOp (hNext.weaken (fun _ hWithin => ?_) fun _ _ hEnd => hEnd)
    exact hWithin.mono subset_rfl (Finset.subset_insert _ _)
  · rw [if_neg h] at hOp
    refine tends_acquire hOp hNew (hNext.weaken (fun _ hWithin => ?_) fun _ _ hEnd => hEnd)
    exact hWithin.mono (Finset.subset_insert _ _) subset_rfl

end Calls

end Span

end DpdkPerf
