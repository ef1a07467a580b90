import Lockstep.Proofs.InPlace
import Lockstep.Proofs.StepFailure
import Lockstep.Proofs.Verifying

/-!
When a step fails, and what it leaves. In a program that assembles the instruction that is next
fails just where `Fails` says, never for a fault in its own form. Although the step is made in place
the node is then as it was, with the error noted, and it takes no step until it is reset or given
another program.
-/
namespace Lockstep

/-- The fault lies in the form of an instruction, not in what it meets. -/
def RuntimeFault.isOfForm : RuntimeFault → Bool
  | operandCount _ => true
  | missingTarget => true
  | missingChannel => true
  | unknownLabel _ => true
  | cannotRead _ => true
  | cannotWrite _ => true
  | notWritable _ => true
  | _ => false

namespace Node
variable {σ : Type} {t : Terminal σ} {ch : Channels} {n m : Node} {s u : σ} {fault : RuntimeFault}
  {i : Instruction}

/-! The instruction that is next. -/

theorem Reaches.reset_eq (h : n.Reaches m) : m.reset = n.reset := by
  induction h with
  | refl => rfl
  | reset _ ih => rw [reset_reset, ih]
  | clearAccWritten _ ih => exact ih
  | step _ t ch s ih => rw [step_reset, ih]

theorem Reachable.wellFormed (h : n.Reachable) (herror : n.reset.error = none) :
    n.program.WellFormed := by
  induction h with
  | new => exact fun i hi => absurd hi List.not_mem_nil
  | @setProgram n _ source _ =>
    rw [Simulation.setProgram_error, Option.map_eq_none_iff] at herror
    exact Simulation.wellFormed_assemble n herror
  | run _ hr ih =>
    have hreset := hr.reset_eq
    obtain ⟨-, -, -, hprogram⟩ := Simulation.fields_of_reset hreset
    rw [hprogram]
    exact ih (hreset ▸ herror)

theorem Reachable.exists_next (h : n.Reachable) (hp : n.program ≠ []) :
    ∃ i, n.program[n.pc]? = some i := by
  have hpc := h.sound.pc.resolve_right fun hnil => hp hnil.1
  exact ⟨_, List.getElem?_eq_getElem hpc⟩

theorem steppable_of_next (hn : n.error = none) (hi : n.program[n.pc]? = some i) :
    n.steppable = true := by
  have hp : n.program ≠ [] := List.ne_nil_of_mem (List.mem_of_getElem? hi)
  simp [steppable, hn, hp]

theorem step_failed_iff (hn : n.error = none) (hi : n.program[n.pc]? = some i) :
    n.step t ch s = (.failed fault, n.fail i.line fault, u) ↔
      n.execute t ch i s = (.error fault, u) := by
  simp only [step, steppable_of_next hn hi, if_true, hi]
  rcases n.execute t ch i s with ⟨e | ⟨m, _ | distance⟩, v⟩
  · simp only [Prod.mk.injEq, StepResult.failed.injEq, Except.error.injEq]
    constructor
    · exact fun h => ⟨h.1, h.2.2⟩
    · rintro ⟨rfl, rfl⟩
      exact ⟨rfl, rfl, rfl⟩
  · simp
  · simp

theorem step_of_failed (hi : n.program[n.pc]? = some i) (h : (n.step t ch s).1 = .failed fault) :
    n.step t ch s = (.failed fault, n.fail i.line fault, (n.step t ch s).2.2) := by
  have hline : n.lineAt = i.line := by simp [lineAt, nextLine?, hi]
  have hs := n.step_stepped t ch s
  generalize n.step t ch s = r at h hs ⊢
  obtain ⟨result, after, v⟩ := r
  simp only at h hs ⊢
  cases hs with
  | failed =>
    cases h
    rw [hline]
  | _ => cases h

theorem Fails.form (h : n.Fails t ch s i fault u) : fault.isOfForm = false := by
  cases h <;> rfl

/-! After a failure. -/

/-- What a node becomes while it is neither reset nor given another program. -/
inductive Persists (n : Node) : Node → Prop
  | refl : Persists n n
  | clearAccWritten {m : Node} (h : Persists n m) : Persists n m.clearAccWritten
  | step {m : Node} (h : Persists n m) {σ : Type} (t : Terminal σ) (ch : Channels) (s : σ) :
      Persists n (m.step t ch s).2.1

theorem step_of_error {e : NodeError} (h : n.error = some e) (t : Terminal σ) (ch : Channels)
    (s : σ) : n.step t ch s = (.idle, n, s) := by
  simp [Node.step, steppable, h]

theorem step_onBench_of_error {e : NodeError} (h : n.error = some e) (t : Terminal σ)
    (ch : Channels) (s : σ) : (n.onBench s).step t ch = (.idle, n.onBench s) := by
  simp [Workbench.step, onBench, steppable, h]

theorem Persists.of_error {e : NodeError} (hm : n.Persists m) (h : n.error = some e) :
    m = { n with accWritten := m.accWritten } := by
  induction hm with
  | refl => rfl
  | @clearAccWritten m _ ih =>
    rw [ih]
    rfl
  | @step m _ _ t ch s ih =>
    have herror : m.error = some e := by rw [ih, h]
    rw [step_of_error herror]
    exact ih

/-- The node after a step that failed is the node before it with the error noted, and stays so. -/
structure Stays (n after : Node) (line : Nat) (fault : RuntimeFault) : Prop where
  unchanged : after = { n with error := some (.runtime line fault) }
  idle : ∀ m, after.Persists m →
    m = { after with accWritten := m.accWritten } ∧
      ∀ {τ : Type} (t : Terminal τ) (ch : Channels) (s : τ),
        m.step t ch s = (.idle, m, s) ∧ (m.onBench s).step t ch = (.idle, m.onBench s)
  until_reset : ∀ m, after.Persists m →
    m.reset.steppable = true ∧ ∀ source, ¬(m.setProgram source).Failed

theorem stays_fail (hp : n.program ≠ []) (line : Nat) (fault : RuntimeFault) :
    n.Stays (n.fail line fault) line fault where
  unchanged := rfl
  idle := by
    intro m hm
    have hsame := hm.of_error rfl
    refine ⟨hsame, ?_⟩
    intro τ t ch s
    have herror : m.error = some (.runtime line fault) := by
      rw [hsame]
      rfl
    exact ⟨step_of_error herror t ch s, step_onBench_of_error herror t ch s⟩
  until_reset := by
    intro m hm
    refine ⟨?_, fun source => not_failed_reset _⟩
    rw [hm.of_error rfl]
    simp [steppable, reset, fail, NodeError.isStatic, Option.filter, hp]

/-- A step of a node with a program that assembled fails for the reasons that `Fails` lists and for
no others, so never because of the form of an instruction. Made in place, change by change and with
nothing taken back, it has changed nothing by then but the terminal: the error is noted on the line
of the instruction, and the node is idle from then on, until it is reset or given another program. -/
theorem fails_exactly {n : Node} (hreach : n.Reachable) (herror : n.error = none)
    (hp : n.program ≠ []) :
    ∃ i, n.program[n.pc]? = some i ∧ n.active.length ≤ n.nodeClass.channels ∧
      ∀ {σ : Type} (t : Terminal σ) (ch : Channels) (s : σ),
        (n.onBench s).step t ch =
          ((n.step t ch s).1, (n.step t ch s).2.1.onBench (n.step t ch s).2.2) ∧
        ∀ fault : RuntimeFault,
          ((n.step t ch s).1 = .failed fault ↔ ∃ u, n.Fails t ch s i fault u) ∧
          (∀ w, (n.onBench s).step t ch = (.failed fault, w) ↔
            ∃ u, n.Fails t ch s i fault u ∧
              w = { n.onBench s with
                node := { (n.onBench s).node with error := some (.runtime i.line fault) }
                terminal := u }) ∧
          ((n.step t ch s).1 = .failed fault →
            fault.isOfForm = false ∧ n.Stays (n.step t ch s).2.1 i.line fault) := by
  obtain ⟨i, hi⟩ := hreach.exists_next hp
  have hwell := hreach.wellFormed (reset_error_of_none herror) i (List.mem_of_getElem? hi)
  refine ⟨i, hi, hreach.sound.few, ?_⟩
  intro σ t ch s
  have hbench := Workbench.step_onBench hreach.sound.tuned.distinct t ch s
  refine ⟨hbench, fun fault => ?_⟩
  have hfails : ∀ u, n.step t ch s = (.failed fault, n.fail i.line fault, u) ↔
      n.Fails t ch s i fault u := fun u =>
    (step_failed_iff herror hi).trans (execute_eq_error_iff hwell.conforms hwell.encodable)
  have hiff : (n.step t ch s).1 = .failed fault ↔ ∃ u, n.Fails t ch s i fault u := by
    simp only [← hfails]
    constructor
    · exact fun h => ⟨_, step_of_failed hi h⟩
    · rintro ⟨u, hu⟩
      rw [hu]
  refine ⟨hiff, fun w => ⟨fun h => ?_, ?_⟩, fun hfailed => ?_⟩
  · rw [hbench, Prod.mk.injEq] at h
    obtain ⟨hfailed, rfl⟩ := h
    have hstep := step_of_failed hi hfailed
    refine ⟨_, (hfails _).mp hstep, ?_⟩
    rw [hstep]
    rfl
  · rintro ⟨u, hu, rfl⟩
    rw [hbench, (hfails u).mpr hu]
    rfl
  · obtain ⟨u, hu⟩ := hiff.mp hfailed
    refine ⟨hu.form, ?_⟩
    rw [step_of_failed hi hfailed]
    exact stays_fail hp i.line fault

def crowded : Node :=
  ((Node.setProgram { nodeClass := .tiny, slot := 0 }
    "; one too many\nMOV CH1 INPUT\nMOV CH2 INPUT").step flood .empty ()).2.1

theorem fails_exactly_crowded :
    crowded.Reachable ∧ crowded.error = none ∧ crowded.program ≠ [] ∧
      crowded.Fails flood .empty () ⟨.mov, [.channel 2, .register .input], 2⟩
        (.tooManyChannels 1) () ∧
      (crowded.onBench ()).step flood .empty = (.failed (.tooManyChannels 1),
        { crowded.onBench () with
          node := { (crowded.onBench ()).node with
            error := some (.runtime 2 (.tooManyChannels 1)) } }) ∧
      crowded.Stays (crowded.step flood .empty ()).2.1 2 (.tooManyChannels 1) := by
  have hreach : crowded.Reachable :=
    .run (.setProgram (.new .tiny 0 false) _) (.step .refl flood .empty ())
  have herror : crowded.error = none := by decide +kernel
  have hprogram : crowded.program ≠ [] := by decide +kernel
  have hnext : crowded.program[crowded.pc]? =
      some ⟨.mov, [.channel 2, .register .input], 2⟩ := by decide +kernel
  have hfailed : (crowded.step flood .empty ()).1 = .failed (.tooManyChannels 1) := by
    decide +kernel
  obtain ⟨i, hi, -, hall⟩ := fails_exactly hreach herror hprogram
  obtain rfl := Option.some.inj (hi.symm.trans hnext)
  obtain ⟨hiff, hbench, hstays⟩ := (hall flood .empty ()).2 (.tooManyChannels 1)
  obtain ⟨_, hfails⟩ := hiff.mp hfailed
  exact ⟨hreach, herror, hprogram, hfails, (hbench _).mpr ⟨(), hfails, rfl⟩, (hstays hfailed).2⟩

end Node
end Lockstep
