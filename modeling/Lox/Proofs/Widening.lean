import Lox.Proofs.Stacked

set_option autoImplicit false

namespace Lox

/-- How a run with more room comes out, beside one with less from the same state: in the same way,
unless the one with less met its bound or left its stack. -/
inductive Limited {α : Type} (before : State) : Outcome (Option α) → Outcome (Option α) → Prop
  | spent (wide : Outcome (Option α)) : Limited before .spent wide
  | same {outcome : Outcome (Option α)} {after : State} (final : outcome.final? = some after)
      (recalls : before.Recalls after) : Limited before outcome outcome
  | gaveOut {after : State} (recalls : before.Recalls after) (wide : Outcome (Option α)) :
      Limited before (.done none after) wide
  | overflowed {narrow : Outcome (Option α)} {after : State} {events : List Event} {fault : Fault}
      (wide : Outcome (Option α)) (final : narrow.final? = some after)
      (trace : after.trace.toList = before.trace.toList ++ events)
      (cause : fault.cause = .stackOverflow)
      (raised : narrow.fault? = some fault ∨ .reported fault ∈ events) :
      Limited before narrow wide

namespace Limited

variable {α : Type} {before middle : State} {narrow wide : Outcome (Option α)}

theorem recalls (limited : Limited before narrow wide) {after : State}
    (final : narrow.final? = some after) : before.Recalls after := by
  cases limited with
  | spent => cases final
  | same final' recalls =>
    rw [final] at final'
    cases final'
    exact recalls
  | gaveOut recalls =>
    cases final
    exact recalls
  | overflowed wide final' trace cause raised =>
    rw [final] at final'
    cases final'
    exact ⟨_, trace⟩

/-- What came before can be counted in. -/
theorem prepend (first : before.Recalls middle) (limited : Limited middle narrow wide) :
    Limited before narrow wide := by
  cases limited with
  | spent => exact .spent wide
  | same final recalls => exact .same final (first.trans recalls)
  | gaveOut recalls => exact .gaveOut (first.trans recalls) wide
  | overflowed wide final trace cause raised =>
    obtain ⟨events, earlier⟩ := first
    rw [earlier, List.append_assoc] at trace
    refine .overflowed wide final trace cause ?_
    exact raised.imp_right (List.mem_append_right events)

/-- Changes that leave the trace alone do not matter. -/
theorem mapState {start : State} {f : State → State} (limited : Limited before narrow wide)
    (keeps : ∀ state, (f state).trace = state.trace) (sameTrace : start.trace = before.trace) :
    Limited start (narrow.mapState f) (wide.mapState f) := by
  have still {after : State} (recalls : before.Recalls after) : start.Recalls (f after) := by
    obtain ⟨events, trace⟩ := recalls
    exact ⟨events, by rw [keeps, sameTrace, trace]⟩
  cases limited with
  | spent => exact .spent _
  | same final recalls => exact .same (by rw [Outcome.final?_mapState, final]; rfl) (still recalls)
  | gaveOut recalls => exact .gaveOut (still recalls) _
  | overflowed wide final trace cause raised =>
    rw [← sameTrace, ← keeps] at trace
    rw [← Outcome.fault?_mapState narrow f] at raised
    exact .overflowed _ (by rw [Outcome.final?_mapState, final]; rfl) trace cause raised

/-- A run that gave out is lost in the one that follows, or is an overflow there. -/
theorem andThen {β : Type} {run other : Run (Option α)} {next after : Option α → Run (Option β)}
    {state : State} (limited : Limited state (run state) (other state))
    (nexts : ∀ value middle, Limited middle (next (some value) middle) (after (some value) middle))
    (lost : ∀ middle wide, Limited middle (next none middle) wide) :
    Limited state (run.andThen next state) (other.andThen after state) := by
  unfold Run.andThen
  generalize run state = outcome at limited ⊢
  generalize other state = wide at limited ⊢
  cases limited with
  | spent => exact .spent _
  | @same _ middle final recalls =>
    cases outcome with
    | done result =>
      cases final
      cases result with
      | some value => exact (nexts value middle).prepend recalls
      | none => exact (lost middle _).prepend recalls
    | fault =>
      cases final
      exact .same rfl recalls
    | spent => cases final
  | gaveOut recalls => exact (lost _ _).prepend recalls
  | @overflowed _ middle events reason _ final trace cause raised =>
    cases outcome with
    | done result =>
      cases final
      -- The bound was met: all that matters is that the report stays in the trace.
      have recalled {last : State} (ends : (next result middle).final? = some last) :
          middle.Recalls last := by
        cases result with
        | some value => exact (nexts value middle).recalls ends
        | none => exact (lost middle .spent).recalls ends
      cases ends : (next result middle).final? with
      | none =>
        simp only [Outcome.eq_spent_of_final? ends]
        exact .spent _
      | some last =>
        obtain ⟨more, longer⟩ := recalled ends
        rw [trace, List.append_assoc] at longer
        rcases raised with now | reported
        · cases now
        · exact .overflowed _ ends longer cause (Or.inr (List.mem_append_left more reported))
    | fault =>
      cases final
      exact .overflowed _ rfl trace cause (raised.imp_left id)
    | spent => cases final

end Limited

namespace Stacked

variable {α β : Type}

/-- At every place of a stack and from every state, the second run is the first with more room, under
a limit as high or higher. -/
def Widens (α : Type) (narrow wide : Stacked Run α) : Prop :=
  ∀ (room : Room) (limit : Nat), room.limit ≤ limit → ∀ state,
    Limited state (narrow room state) (wide { room with limit } state)

theorem fits_raised {room : Room} {limit : Nat} {frame : Frame} (more : room.limit ≤ limit)
    (fits : (room.enter frame).fits = true) :
    (Room.enter { room with limit } frame).fits = true :=
  decide_eq_true (Nat.le_trans (of_decide_eq_true fits) more)

theorem widens_atOnce (around : Bool → Frame) {run : Run α} (recalls : Run.Recalls α run run) :
    Widens α (atOnce around run) (atOnce around run) := by
  intro room limit more state
  unfold atOnce
  by_cases before : (room.enter (around false)).fits = true
  · have beforeToo : (Room.enter { room with limit } (around false)).fits = true :=
      fits_raised more before
    rw [if_pos before, if_pos beforeToo]
    simp only [Run.bind_eq, Run.andThen]
    have recalled := recalls state
    generalize run state = outcome at recalled ⊢
    cases outcome with
    | done value middle =>
      show Limited state (.done (if (room.enter (around true)).fits then some value else none) middle)
        (.done (if (Room.enter { room with limit } (around true)).fits then some value else none)
          middle)
      by_cases after : (room.enter (around true)).fits = true
      · have afterToo : (Room.enter { room with limit } (around true)).fits = true :=
          fits_raised more after
        rw [if_pos after, if_pos afterToo]
        exact .same rfl (recalled middle rfl)
      · rw [if_neg after]
        exact .gaveOut (recalled middle rfl) _
    | fault reason middle => exact .same rfl (recalled middle rfl)
    | spent => exact .spent _
  · rw [if_neg before]
    exact .gaveOut (.refl state) _

theorem Widens.andThen {narrow wide : Stacked Run α} {next after : α → Stacked Run β}
    (firsts : Widens α narrow wide) (nexts : ∀ value, Widens β (next value) (after value)) :
    Widens β (narrow >>= next) (wide >>= after) := by
  intro room limit more state
  refine Limited.andThen (firsts room limit more state) ?_ ?_
  · intro value middle
    exact nexts value room limit more middle
  · intro middle wide
    exact .gaveOut (.refl middle) wide

theorem Widens.framed {narrow wide : Stacked Run α} (frame : Frame) (runs : Widens α narrow wide) :
    Widens α (narrow.framed frame) (wide.framed frame) := by
  intro room limit more state
  unfold Stacked.framed
  by_cases fits : (room.enter frame).fits = true
  · have fitsToo : (Room.enter { room with limit } frame).fits = true :=
      fits_raised more fits
    rw [if_pos fits, if_pos fitsToo]
    exact runs (room.enter frame) limit more state
  · rw [if_neg fits]
    exact .gaveOut (.refl state) _

theorem Widens.within {narrow wide : Stacked Run α} (scope : ScopeId) (runs : Widens α narrow wide) :
    Widens α (Machine.within scope narrow) (Machine.within scope wide) := by
  intro room limit more state
  show Limited state (Run.within scope (narrow room) state) (Run.within scope (wide _) state)
  rw [Run.within_eq, Run.within_eq]
  exact (runs room limit more { state with current := scope }).mapState (fun _ => rfl) rfl

/-- Where the narrow bound lets a call begin, the wide one does. -/
theorem Widens.asCall {narrow wide : Stacked Run α} {less more : Config} (paren : Token)
    (invocation : Invocation) (bound : less.maxDepth ≤ more.maxDepth) (runs : Widens α narrow wide) :
    Widens α (narrow.asCall less paren invocation) (wide.asCall more paren invocation) := by
  intro room limit raised state
  refine Limited.andThen ?_ ?_ ?_
  · show Limited state (Run.asCall less paren (narrow.framed _ room) state)
      (Run.asCall more paren (wide.framed _ { room with limit }) state)
    by_cases deep : less.maxDepth ≤ state.calls
    · rw [Run.asCall_refused paren _ deep]
      exact .overflowed _ rfl (List.append_nil _).symm rfl (Or.inl rfl)
    · have shallow : ¬ more.maxDepth ≤ state.calls := by omega
      rw [Run.asCall_begun paren _ deep, Run.asCall_begun paren _ shallow]
      have inner := runs.framed (.invocation invocation) room limit raised
      exact (inner { state with calls := state.calls + 1 }).mapState (fun _ => rfl) rfl
  · intro value middle
    exact .same rfl (.refl middle)
  · intro middle wide
    exact .overflowed wide rfl (List.append_nil _).symm rfl (Or.inl rfl)

theorem Widens.settled {narrow wide : Stacked Run Value} (policy : Policy)
    (runs : Widens Value narrow wide) :
    Widens Value (narrow.settled policy) (wide.settled policy) := by
  intro room limit more state
  have inner := runs room limit more state
  show Limited state (Run.recover policy (report room) (narrow room) state)
    (Run.recover policy (report { room with limit }) (wide { room with limit }) state)
  unfold Run.recover
  generalize narrow room state = outcome at inner ⊢
  generalize wide { room with limit } state = other at inner ⊢
  -- A report takes room as well, so that a stack may give out after the fault.
  have reports (fault : Fault) (after : State) : Limited after (report room fault after)
      (report { room with limit } fault after) := by
    have recalls : Run.Recalls Value (Run.report fault) (Run.report fault) := by
      intro state after final
      cases final
      exact .add state (.reported fault)
    exact widens_atOnce .report recalls room limit more after
  cases inner with
  | spent => exact .spent _
  | @same _ after final recalls =>
    cases outcome with
    | done =>
      cases final
      exact .same rfl recalls
    | fault reason =>
      cases final
      cases policy with
      | resume => exact (reports reason after).prepend recalls
      | abort => exact .same rfl recalls
    | spent => cases final
  | gaveOut recalls => exact .gaveOut recalls _
  | @overflowed _ after events reason _ final trace cause raised =>
    cases outcome with
    | done =>
      cases final
      exact .overflowed _ rfl trace cause raised
    | fault other =>
      cases final
      cases policy with
      | resume =>
        simp only [report_eq]
        split
        · have longer := State.trace_add_of_append trace (.reported other)
          refine .overflowed _ rfl longer cause (Or.inr (List.mem_append.mpr ?_))
          rcases raised with now | earlier
          · cases now
            exact Or.inr List.mem_cons_self
          · exact Or.inl earlier
        · exact .gaveOut ⟨events, trace⟩ _
      | abort => exact .overflowed _ rfl trace cause raised
    | spent => cases final

end Stacked

namespace World

end World

/-- A program that ends with a verdict and no overflow ends so with more room. -/
theorem Limited.ending {state : State} {room : Room} {limit : Nat}
    {narrow wide : Outcome (Option (Option Value))} {verdict : Verdict}
    (limited : Limited state narrow wide) (more : room.limit ≤ limit)
    (ended : Ending.ofOutcome? room narrow = some (.ended verdict))
    (unmet : ∀ fault ∈ verdict.faults state, fault.cause ≠ .stackOverflow) :
    Ending.ofOutcome? { room with limit } wide = some (.ended verdict) := by
  rcases Ending.ended_cases ended with ⟨result, after, rfl, rfl⟩ | ⟨last, after, rfl, fits, told, rfl⟩
  · cases limited with
    | same => exact ended
    | overflowed _ final trace cause raised =>
      cases final
      rcases raised with now | reported
      · cases now
      · refine absurd cause (unmet _ ?_)
        rw [Verdict.faults, Verdict.events, State.since_of_append trace, List.mem_filterMap]
        exact ⟨_, reported, rfl⟩
  · cases limited with
    | same =>
      exact Ending.ofOutcome?_fault (Stacked.fits_raised more fits) (Stacked.fits_raised more told)
        last after
    | overflowed _ final trace cause raised =>
      cases final
      have longer := State.trace_add_of_append trace (.reported last)
      refine absurd cause (unmet _ ?_)
      rw [Verdict.faults, Verdict.events, State.since_of_append longer, List.mem_filterMap]
      refine ⟨.reported _, List.mem_append.mpr ?_, rfl⟩
      rcases raised with now | earlier
      · cases now
        exact Or.inr List.mem_cons_self
      · exact Or.inl earlier

namespace World

end World

end Lox
