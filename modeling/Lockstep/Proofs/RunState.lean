import Lockstep.Proofs.ChannelMap

/-!
The state of a run. The halt flag and the errors of the nodes, the mode and the score, the counters
of the test sets, the cursor and the output are kept in different places by different operations;
`RunState` says how they hang together in every simulation that can be reached.
-/
namespace Lockstep

namespace Exchange
variable {offer : Offer}

theorem kept_output (offer : Offer) :
    Kept offer fun x => x.output.size ≤ offer.limit ∧ ∀ v ∈ x.output, clamp v = v := by
  refine ⟨fun x _ h => h, fun x slot v h => h, ?_⟩
  intro x slot v _ hroom h
  rw [(accept_books offer slot (clamp v) x).1]
  refine ⟨?_, ?_⟩
  · rw [Array.size_push]
    omega
  · intro w hw
    rcases Array.mem_push.mp hw with hw | rfl
    · exact h.2 w hw
    · exact Node.clamp_clamp v

theorem kept_consumed (offer : Offer) : Kept offer fun x => x.consumed → offer.input.isSome := by
  refine ⟨fun x hinput _ _ => hinput, fun x slot v h => h, ?_⟩
  intro x slot v _ _ h
  rw [(accept_books offer slot (clamp v) x).2.2]
  exact h

end Exchange

namespace Simulation
variable {s t : Simulation}

/-! The halt flag. -/

structure HaltState (sim : Simulation) : Prop where
  halted_iff : sim.halted = true ↔ ∃ n ∈ sim.nodes, n.Failed
  mode : sim.halted = true → sim.mode = .running ∨ sim.mode = .paused

theorem haltState_sound (hnodes : ∀ n ∈ s.nodes, ¬ n.Failed) (hs : s.halted = false) :
    HaltState s := by
  refine ⟨iff_of_false ?_ ?_, fun h => ?_⟩
  · rw [hs]
    exact Bool.false_ne_true
  · rintro ⟨n, hn, hf⟩
    exact hnodes n hn hf
  · rw [hs] at h
    cases h

theorem runtimeErrors_isEmpty_iff {sim : Simulation} :
    sim.runtimeErrors.isEmpty = true ↔ ∀ n ∈ sim.nodes, ¬ n.Failed := by
  rw [List.isEmpty_iff, runtimeErrors, List.filterMap_eq_nil_iff]
  refine forall₂_congr fun n _ => ?_
  rw [Node.Failed]
  cases n.error with
  | none => simp
  | some e => cases he : e.isRuntime <;> simp [he]

theorem haltState_liftHalt (hset : ∀ n ∈ s.nodes, n.Failed → s.halted = true)
    (hmode : s.halted = true → s.mode = .running ∨ s.mode = .paused) : HaltState s.liftHalt := by
  unfold liftHalt
  split_ifs with hempty
  · exact haltState_sound (runtimeErrors_isEmpty_iff.mp hempty) rfl
  · have hsome : ∃ n ∈ s.nodes, n.Failed := by
      by_contra hnone
      refine hempty (runtimeErrors_isEmpty_iff.mpr fun n hn hf => hnone ⟨n, hn, hf⟩)
    obtain ⟨n, hn, hf⟩ := hsome
    exact ⟨iff_of_true (hset n hn hf) ⟨n, hn, hf⟩, hmode⟩

theorem HaltState.not_failed (h : HaltState s) (ha : s.Active) : ∀ n ∈ s.nodes, ¬ n.Failed :=
  fun n hn hf => ha.2 (h.halted_iff.mpr ⟨n, hn, hf⟩)

theorem not_failed_map_reset (ns : List Node) : ∀ n ∈ ns.map Node.reset, ¬ n.Failed := by
  intro n hn
  obtain ⟨m, -, rfl⟩ := List.mem_map.mp hn
  exact m.not_failed_reset

theorem HaltState.tick (h : HaltState s) : HaltState s.tick.after := by
  -- a tick begins with no node in error, so every node in error after it has failed in it
  have hsteps : ∀ {ns x failure}, s.Active → s.steps = (ns, x, failure) →
      ((∃ n ∈ ns, n.Failed) ↔ failure ≠ none) := by
    intro ns x failure ha hs
    have hiff : (∃ n ∈ s.steps.1, n.Failed) ↔ s.steps.2.2 ≠ none :=
      Exchange.stepNodes_failed_iff (h.not_failed ha) _
    rw [hs] at hiff
    exact hiff
  have hsound : ∀ {ns x}, s.Active → s.steps = (ns, x, none) → ∀ n ∈ ns, ¬ n.Failed := by
    intro ns x ha hs n hn hf
    exact (hsteps ha hs).mp ⟨n, hn, hf⟩ rfl
  have hflag : s.Active → s.halted = false := fun ha => by simpa using ha.2
  have ht := s.tick_ticked
  generalize s.tick = t at ht
  cases ht with
  | idle => exact h
  | halted ha hs =>
    refine ⟨iff_of_true rfl ?_, fun _ => .inl ha.1⟩
    exact (hsteps ha hs).mpr (by simp)
  | advanced ha hs => exact haltState_sound (hsound ha hs) (hflag ha)
  | setPassed ha hs => exact haltState_sound (not_failed_map_reset _) (hflag ha)
  | won ha hs => exact haltState_sound (hsound ha hs) (hflag ha)

theorem invariant_halt : Invariant HaltState where
  ofPuzzle := by
    intro puzzle settings sim h
    obtain ⟨-, rfl⟩ := ofPuzzle_eq_ok h
    refine haltState_sound ?_ rfl
    intro n hn
    obtain ⟨c, -, rfl⟩ := List.mem_map.mp hn
    simp [Node.Failed]
  addNode := by
    intro s t nodeClass slot ht h
    obtain ⟨-, rfl⟩ := addNode_eq_ok ht
    refine ⟨h.halted_iff.trans ?_, h.mode⟩
    simp only [mem_insertNode, exists_eq_or_imp]
    simp [Node.Failed]
  removeNode := by
    intro s t node slot ht h
    obtain ⟨-, -, rfl⟩ := removeNode_eq_ok ht
    refine haltState_liftHalt ?_ h.mode
    intro n hn hf
    exact h.halted_iff.mpr ⟨n, (List.mem_filter.mp hn).1, hf⟩
  setProgram := by
    intro s t slot source ht h
    obtain ⟨node, -, rfl, -⟩ := setProgram_eq_ok ht
    refine haltState_liftHalt ?_ h.mode
    intro n hn hf
    obtain ⟨m, hm, rfl⟩ := List.mem_map.mp hn
    split_ifs at hf
    · exact absurd hf (Node.not_failed_reset _)
    · exact h.halted_iff.mpr ⟨m, hm, hf⟩
  start := fun _ _ _ => haltState_sound (not_failed_map_reset _) rfl
  pause := fun _ h => ⟨h.halted_iff, fun _ => .inr rfl⟩
  resume := fun _ h => ⟨h.halted_iff, fun _ => .inl rfl⟩
  stop := fun _ => haltState_sound (not_failed_map_reset _) rfl
  tick := HaltState.tick

/-! How far the run has come. No edit touches any of it. -/

structure Progress (sim : Simulation) : Prop where
  score_iff : sim.score.isSome = true ↔ sim.mode = .won
  underway : sim.mode = .running ∨ sim.mode = .paused →
    sim.setIndex < sim.puzzle.sets.length ∧ sim.setsPassed = sim.setIndex
  won : sim.mode = .won → sim.setsPassed = sim.puzzle.sets.length ∧
    sim.puzzle.sets.length = sim.setIndex + 1 ∧ sim.output = sim.currentSet.output ∧
    sim.cursor = sim.currentSet.input.size
  editing : sim.mode = .edit → sim.ticks = 0 ∧ sim.cursor = 0 ∧ sim.setIndex = 0 ∧
    sim.setsPassed = 0 ∧ sim.output = #[]
  cursor_le : sim.cursor ≤ sim.currentSet.input.size
  output : sim.output.size ≤ sim.settings.outputLimit ∧ ∀ v ∈ sim.output, clamp v = v

theorem Progress.edited (h : Progress s) (he : Edited s t) : Progress t := by
  obtain ⟨nodes, channels, halted, rfl⟩ := he.same_run
  exact ⟨h.score_iff, h.underway, h.won, h.editing, h.cursor_le, h.output⟩

theorem progress_blank {sim : Simulation} (hmode : sim.mode = .edit) (hscore : sim.score = none)
    (hstart : sim.ticks = 0 ∧ sim.cursor = 0 ∧ sim.setIndex = 0 ∧ sim.setsPassed = 0 ∧
      sim.output = #[]) : Progress sim := by
  obtain ⟨hticks, hcursor, hindex, hpassed, houtput⟩ := hstart
  refine ⟨by simp [hscore, hmode], by simp [hmode], by simp [hmode],
    fun _ => ⟨hticks, hcursor, hindex, hpassed, houtput⟩, ?_, ?_⟩
  · rw [hcursor]
    exact Nat.zero_le _
  · rw [houtput]
    exact ⟨Nat.zero_le _, fun v hv => absurd hv (Array.not_mem_empty v)⟩

theorem progress_underway {sim : Simulation} (hmode : sim.mode = .running ∨ sim.mode = .paused)
    (hscore : sim.score = none)
    (hsets : sim.setIndex < sim.puzzle.sets.length ∧ sim.setsPassed = sim.setIndex)
    (hcursor : sim.cursor ≤ sim.currentSet.input.size)
    (houtput : sim.output.size ≤ sim.settings.outputLimit ∧ ∀ v ∈ sim.output, clamp v = v) :
    Progress sim := by
  have hmodes : sim.mode ≠ .won ∧ sim.mode ≠ .edit := by
    rcases hmode with h | h <;> simp [h]
  refine ⟨iff_of_false ?_ hmodes.1, fun _ => hsets, fun hw => absurd hw hmodes.1,
    fun he => absurd he hmodes.2, hcursor, houtput⟩
  simp [hscore]

theorem Progress.score_eq_none (h : Progress s) (hmode : s.mode ≠ .won) : s.score = none := by
  rw [← Option.not_isSome_iff_eq_none]
  exact fun hsome => hmode (h.score_iff.mp hsome)

theorem Progress.steps (h : Progress s) {ns : List Node} {x : Exchange}
    {failure : Option (UInt8 × NodeError)} (hs : s.steps = (ns, x, failure)) :
    s.nextCursor x ≤ s.currentSet.input.size ∧
      x.output.size ≤ s.settings.outputLimit ∧ ∀ v ∈ x.output, clamp v = v := by
  have hx : x = s.steps.2.1 := by rw [hs]
  have houtput := (Exchange.kept_output s.offer).stepNodes s.channels s.nodes
    (x := { output := s.output }) h.output
  have hread := (Exchange.kept_consumed s.offer).stepNodes s.channels s.nodes
    (x := { output := s.output }) (by simp)
  rw [← Simulation.steps, ← hx] at houtput hread
  refine ⟨?_, houtput⟩
  unfold nextCursor
  split_ifs with hconsumed
  · -- an input was there to be taken, so the cursor was not yet at the end
    have hinput : (s.currentSet.input[s.cursor]?).isSome := hread hconsumed
    have hlt : s.cursor < s.currentSet.input.size := by
      by_contra hend
      rw [Array.getElem?_eq_none (Nat.le_of_not_lt hend)] at hinput
      cases hinput
    omega
  · exact h.cursor_le

theorem Progress.tick (h : Progress s) : Progress s.tick.after := by
  have hgoes : ∀ {ns x failure} (halted : Bool), s.Active → s.steps = (ns, x, failure) →
      Progress { s.afterSteps ns x with halted := halted } := by
    intro ns x failure halted ha hs
    obtain ⟨hcursor, houtput⟩ := h.steps hs
    exact progress_underway (.inl ha.1) (h.score_eq_none ha.mode_ne_won) (h.underway (.inl ha.1))
      hcursor houtput
  have ht := s.tick_ticked
  generalize s.tick = t at ht
  cases ht with
  | idle => exact h
  | halted ha hs => exact hgoes true ha hs
  | advanced ha hs => exact hgoes s.halted ha hs
  | setPassed ha hs hc hn =>
    obtain ⟨-, hpassed⟩ := h.underway (.inl ha.1)
    -- the next set starts with its input unread and nothing put out
    refine progress_underway (.inl ha.1) (h.score_eq_none ha.mode_ne_won)
      ⟨hn, congrArg (· + 1) hpassed⟩ (Nat.zero_le _) ⟨Nat.zero_le _, ?_⟩
    exact fun v hv => absurd hv (Array.not_mem_empty v)
  | @won ns x ha hs hc hl =>
    obtain ⟨hbound, hpassed⟩ := h.underway (.inl ha.1)
    obtain ⟨hcursor, houtput⟩ := h.steps hs
    refine ⟨iff_of_true rfl rfl, ?_, ?_, ?_, hcursor, houtput⟩
    · rintro (hr | hp)
      · cases hr
      · cases hp
    · intro _
      refine ⟨?_, ?_, hc⟩
      · change s.setsPassed + 1 = s.puzzle.sets.length
        omega
      · change s.puzzle.sets.length = s.setIndex + 1
        omega
    · intro he
      cases he

theorem invariant_progress : Invariant Progress where
  ofPuzzle := by
    intro puzzle settings sim h
    obtain ⟨-, rfl⟩ := ofPuzzle_eq_ok h
    exact progress_blank rfl rfl ⟨rfl, rfl, rfl, rfl, rfl⟩
  addNode := fun ht h => h.edited (Edited.refl.addNode ht)
  removeNode := fun ht h => h.edited (Edited.refl.removeNode ht)
  setProgram := fun ht h => h.edited (Edited.refl.setProgram ht)
  start := by
    intro s _ hsets _
    have hlen : 0 < s.puzzle.sets.length := List.length_pos_iff.mpr hsets
    refine progress_underway (.inl rfl) rfl ⟨hlen, rfl⟩ (Nat.zero_le _) ⟨Nat.zero_le _, ?_⟩
    exact fun v hv => absurd hv (Array.not_mem_empty v)
  pause := by
    intro s hmode h
    exact progress_underway (.inr rfl) (h.score_eq_none (by simp [hmode]))
      (h.underway (.inl hmode)) h.cursor_le h.output
  resume := by
    intro s hmode h
    exact progress_underway (.inl rfl) (h.score_eq_none (by simp [hmode]))
      (h.underway (.inr hmode)) h.cursor_le h.output
  stop := fun _ => progress_blank rfl rfl ⟨rfl, rfl, rfl, rfl, rfl⟩
  tick := Progress.tick

/-! Nodes at rest. -/

theorem tick_mode_edit (h : s.tick.after.mode = .edit) : s.tick.after = s := by
  have ht := s.tick_ticked
  generalize s.tick = t at ht h
  cases ht with
  | idle => rfl
  | halted ha => cases ha.1.symm.trans h
  | advanced ha => cases ha.1.symm.trans h
  | setPassed ha => cases ha.1.symm.trans h
  | won => cases h

theorem Edited.mode_eq (h : Edited s t) : t.mode = s.mode := by
  obtain ⟨nodes, channels, halted, rfl⟩ := h.same_run
  rfl

theorem invariant_rest : Invariant fun sim => sim.mode = .edit → ∀ n ∈ sim.nodes, n.reset = n where
  ofPuzzle := by
    intro puzzle settings sim h _ n hn
    obtain ⟨nodeClass, slot, rfl⟩ := mem_of_ofPuzzle h hn
    rfl
  addNode := by
    intro s t nodeClass slot ht h hmode n hn
    rw [(Edited.refl.addNode ht).mode_eq] at hmode
    rcases mem_of_addNode ht hn with rfl | hn
    · rfl
    · exact h hmode n hn
  removeNode := by
    intro s t node slot ht h hmode n hn
    rw [(Edited.refl.removeNode ht).mode_eq] at hmode
    exact h hmode n (mem_of_removeNode ht hn)
  setProgram := by
    intro s t slot source ht h hmode n hn
    rw [(Edited.refl.setProgram ht).mode_eq] at hmode
    rcases mem_of_setProgram ht hn with ⟨node, -, rfl⟩ | hn
    · exact Node.reset_reset _
    · exact h hmode n hn
  start := fun _ _ _ hmode => Mode.noConfusion hmode
  pause := fun _ _ hmode => Mode.noConfusion hmode
  resume := fun _ _ hmode => Mode.noConfusion hmode
  stop := by
    intro s _ _ n hn
    obtain ⟨m, -, rfl⟩ := List.mem_map.mp hn
    exact m.reset_reset
  tick := by
    intro s h hmode
    have hsame := tick_mode_edit hmode
    rw [hsame] at hmode ⊢
    exact h hmode

/-- How the parts of a simulation hang together. -/
structure RunState (sim : Simulation) : Prop where
  halted_iff : sim.halted = true ↔ ∃ n ∈ sim.nodes, n.Failed
  halted_mode : sim.halted = true → sim.mode = .running ∨ sim.mode = .paused
  score_iff : sim.score.isSome = true ↔ sim.mode = .won
  underway : sim.mode = .running ∨ sim.mode = .paused →
    sim.setIndex < sim.puzzle.sets.length ∧ sim.setsPassed = sim.setIndex
  won : sim.mode = .won → sim.setsPassed = sim.puzzle.sets.length ∧
    sim.puzzle.sets.length = sim.setIndex + 1 ∧
    ∃ set, sim.puzzle.sets.getLast? = some set ∧ sim.output = set.output ∧
      sim.cursor = set.input.size
  editing : sim.mode = .edit → sim.ticks = 0 ∧ sim.cursor = 0 ∧ sim.setIndex = 0 ∧
    sim.setsPassed = 0 ∧ sim.output = #[] ∧ sim.channels = .empty ∧ ∀ n ∈ sim.nodes, n.reset = n
  cursor_le : sim.cursor ≤ sim.currentSet.input.size
  output_size : sim.output.size ≤ sim.settings.outputLimit
  output_range : ∀ v ∈ sim.output, -490 ≤ v ∧ v ≤ 490
  own_slot : ∀ slot n, sim.node? slot = some n ↔ n ∈ sim.nodes ∧ n.slot = slot
  fixed_iff : ∀ i c, sim.puzzle.fixedNodes[i]? = some c ↔
    ∃ n ∈ sim.nodes, n.slot.toNat = i ∧ n.fixed = true ∧ n.nodeClass = c

theorem Placed.fixedNodes_iff {puzzle : Puzzle} {ns : List Node} (h : Placed puzzle ns) (i : Nat)
    (c : NodeClass) : puzzle.fixedNodes[i]? = some c ↔
      ∃ n ∈ ns, n.slot.toNat = i ∧ n.fixed = true ∧ n.nodeClass = c := by
  constructor
  · intro hc
    obtain ⟨n, hn, hi, hclass⟩ := h.fixed i c hc
    have hlt := (List.getElem?_eq_some_iff.mp hc).1
    exact ⟨n, hn, hi, (h.fixed_iff n hn).mpr (hi ▸ hlt), hclass⟩
  · rintro ⟨n, hn, rfl, hfixed, rfl⟩
    rw [h.fixedNodes_eq hn, if_pos hfixed]

theorem currentSet_last {sim : Simulation} (h : sim.puzzle.sets.length = sim.setIndex + 1) :
    sim.puzzle.sets.getLast? = some sim.currentSet := by
  have hlast : sim.puzzle.sets.length - 1 = sim.setIndex := by omega
  rw [List.getLast?_eq_getElem?, hlast]
  exact currentSet_eq (by omega)

/-- The parts of a simulation hang together, whatever has been done to it. -/
theorem run_state (sim : Simulation) (hreach : Reachable sim) : RunState sim := by
  have hhalt := invariant_halt.reachable hreach
  have hprogress := invariant_progress.reachable hreach
  have hplaced := hreach.placed
  refine ⟨hhalt.halted_iff, hhalt.mode, hprogress.score_iff, hprogress.underway, ?_, ?_,
    hprogress.cursor_le, hprogress.output.1, ?_, ?_, hplaced.fixedNodes_iff⟩
  · intro hw
    obtain ⟨hpassed, hlast, houtput, hcursor⟩ := hprogress.won hw
    exact ⟨hpassed, hlast, sim.currentSet, currentSet_last hlast, houtput, hcursor⟩
  · intro he
    obtain ⟨hticks, hcursor, hindex, hpassed, houtput⟩ := hprogress.editing he
    have hrest := invariant_rest.reachable hreach he
    refine ⟨hticks, hcursor, hindex, hpassed, houtput, ?_, hrest⟩
    rw [hreach.channels_eq]
    exact mixChannels_silent fun n hn => congrArg Node.broadcasts (hrest n hn).symm
  · intro v hv
    have hclamp := hprogress.output.2 v hv
    simp only [clamp, minValue, maxValue] at hclamp
    omega
  · intro slot n
    constructor
    · exact node?_eq_some
    · rintro ⟨hn, rfl⟩
      exact hplaced.order.find?_eq_some hn

/-- Two nodes that have put out different values in one tick, with the run paused after that. -/
def standoff : Simulation :=
  vacant.afterAll
    [.addNode .tiny 0, .setProgram 0 "MOV OUTPUT 1", .addNode .tiny 1, .setProgram 1 "MOV OUTPUT 2",
      .start, .tick, .pause]

theorem run_state_standoff :
    Reachable standoff ∧ standoff.halted = true ∧ standoff.mode = .paused ∧ RunState standoff :=
  ⟨reachable_vacant _, by decide +kernel, by decide +kernel, run_state standoff (reachable_vacant _)⟩

end Simulation
end Lockstep
