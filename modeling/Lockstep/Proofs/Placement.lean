import Lockstep.Proofs.Operations
import Lockstep.Proofs.ProgramCode
import Mathlib.Data.List.Sort

/-!
How nodes are placed. In every simulation that can be reached the nodes stand in the order of their
slots, the puzzle's own nodes in the first ones, and a program without a static error is well-formed
and fits its node.
-/
namespace Lockstep

theorem NodeClass.lines_le (c : NodeClass) : c.lines ≤ 15 := by cases c <;> decide

namespace Simulation

def InOrder (ns : List Node) : Prop := ns.Pairwise fun m n => m.slot < n.slot

theorem InOrder.find?_eq_some {ns : List Node} (h : InOrder ns) {n : Node} (hn : n ∈ ns) :
    ns.find? (fun m => m.slot = n.slot) = some n := by
  induction ns with
  | nil => cases hn
  | cons m ns ih =>
    obtain ⟨hm, hns⟩ := List.pairwise_cons.mp h
    rcases List.mem_cons.mp hn with rfl | hn
    · simp
    · have hne : m.slot ≠ n.slot := UInt8.ne_of_lt (hm n hn)
      rw [List.find?_cons_of_neg (by simpa using hne)]
      exact ih hns hn

theorem InOrder.eq_of_slot {ns : List Node} (h : InOrder ns) {m n : Node} (hm : m ∈ ns)
    (hn : n ∈ ns) (hs : m.slot = n.slot) : m = n := by
  have hfound := h.find?_eq_some hm
  rw [hs, h.find?_eq_some hn] at hfound
  exact (Option.some.inj hfound).symm

theorem InOrder.slots_nodup {ns : List Node} (h : InOrder ns) : (ns.map Node.slot).Nodup :=
  List.pairwise_map.mpr (h.imp fun hlt => UInt8.ne_of_lt hlt)

theorem InOrder.nodup {ns : List Node} (h : InOrder ns) : ns.Nodup := h.slots_nodup.of_map

theorem InOrder.ext {ns ms : List Node} (hn : InOrder ns) (hm : InOrder ms)
    (h : ∀ n, n ∈ ns ↔ n ∈ ms) : ns = ms := by
  have hperm : ns.Perm ms := (List.perm_ext_iff_of_nodup hn.nodup hm.nodup).mpr h
  refine hperm.eq_of_pairwise ?_ hn hm
  intro a b _ _ hab hba
  exact absurd (UInt8.lt_trans hab hba) (UInt8.lt_irrefl _)

theorem mem_insertNode {node n : Node} {ns : List Node} :
    n ∈ insertNode node ns ↔ n = node ∨ n ∈ ns := by
  induction ns with
  | nil => simp [insertNode]
  | cons m ns ih =>
    unfold insertNode
    split_ifs
    · simp
    · rw [List.mem_cons, ih, List.mem_cons]
      exact or_left_comm

theorem InOrder.insertNode {ns : List Node} (h : InOrder ns) {node : Node}
    (hfree : ∀ n ∈ ns, n.slot ≠ node.slot) : InOrder (insertNode node ns) := by
  induction ns with
  | nil => exact List.pairwise_singleton _ _
  | cons m ns ih =>
    obtain ⟨hm, hns⟩ := List.pairwise_cons.mp h
    unfold Simulation.insertNode
    split_ifs with hlt
    · refine List.pairwise_cons.mpr ⟨?_, h⟩
      intro n hn
      rcases List.mem_cons.mp hn with rfl | hn
      · exact hlt
      · exact UInt8.lt_trans hlt (hm n hn)
    · refine List.pairwise_cons.mpr ⟨?_, ih hns fun n hn => hfree n (.tail _ hn)⟩
      intro n hn
      rcases mem_insertNode.mp hn with rfl | hn
      · have hne := hfree m (.head _)
        exact UInt8.lt_of_le_of_ne (UInt8.not_lt.mp hlt) hne
      · exact hm n hn

/-! What each edit does to the nodes. -/

theorem node?_eq_none {sim : Simulation} {slot : UInt8} (h : sim.node? slot = none) :
    ∀ n ∈ sim.nodes, n.slot ≠ slot := by
  intro n hn hs
  have hnone := List.find?_eq_none.mp h n hn
  exact hnone (decide_eq_true hs)

theorem node?_eq_some {sim : Simulation} {slot : UInt8} {node : Node}
    (h : sim.node? slot = some node) : node ∈ sim.nodes ∧ node.slot = slot := by
  have hslot := List.find?_some h
  exact ⟨List.mem_of_find?_eq_some h, of_decide_eq_true hslot⟩

theorem InOrder.eq_of_node? {s t : Simulation} (hs : InOrder s.nodes) (ht : InOrder t.nodes)
    (h : ∀ slot, s.node? slot = t.node? slot) : s.nodes = t.nodes := by
  have hmem : ∀ {x y : Simulation}, InOrder x.nodes → (∀ slot, x.node? slot = y.node? slot) →
      ∀ n ∈ x.nodes, n ∈ y.nodes := by
    intro x y hx hxy n hn
    exact (node?_eq_some ((hxy n.slot).symm.trans (hx.find?_eq_some hn))).1
  exact hs.ext ht fun n => ⟨hmem hs h n, hmem ht (fun slot => (h slot).symm) n⟩

theorem liftHalt_nodes (sim : Simulation) : sim.liftHalt.nodes = sim.nodes := by
  obtain ⟨halted, h⟩ := sim.liftHalt_eq
  rw [h]

theorem addNode_eq_ok {sim after : Simulation} {nodeClass : NodeClass} {slot : UInt8}
    (h : sim.addNode nodeClass slot = .ok after) :
    sim.node? slot = none ∧
      after = { sim with nodes := insertNode { nodeClass, slot } sim.nodes } := by
  unfold addNode at h
  split at h
  · cases h
  · exact ⟨by assumption, (Except.ok.inj h).symm⟩

theorem removeNode_eq_ok {sim after : Simulation} {node : Node} {slot : UInt8}
    (h : sim.removeNode slot = .ok (node, after)) :
    sim.node? slot = some node ∧ node.fixed = false ∧
      after = { sim with nodes := sim.nodes.filter fun n => n.slot ≠ slot }.remix.liftHalt := by
  unfold removeNode at h
  split at h
  · cases h
  · split_ifs at h with hfixed
    obtain ⟨rfl, rfl⟩ := Prod.mk.inj (Except.ok.inj h)
    exact ⟨by assumption, by simpa using hfixed, rfl⟩

theorem setProgram_eq_ok {sim after : Simulation} {slot : UInt8} {source : String}
    (h : sim.setProgram slot source = .ok after) :
    ∃ node, sim.node? slot = some node ∧
      after = (sim.replaceNode (node.setProgram source)).remix.liftHalt ∧
      ((node.assemble source).error = none →
        ∃ text, (node.assemble source).program.verifiedCode = .ok text) := by
  unfold setProgram at h
  split at h
  · cases h
  · rename_i node hnode
    refine ⟨node, hnode, ?_⟩
    simp only at h
    split at h
    · rename_i e he
      obtain rfl := Except.ok.inj h
      exact ⟨rfl, fun hn => absurd (he.symm.trans hn) (by simp)⟩
    · split at h
      · rename_i text htext
        obtain rfl := Except.ok.inj h
        exact ⟨rfl, fun _ => ⟨text, htext⟩⟩
      · cases h

/-! The invariant. -/

def Intact (n : Node) : Prop :=
  n.program.WellFormed ∧ List.length n.program ≤ n.nodeClass.lines

/-- The nodes of a simulation, as every sequence of operations leaves them. -/
structure Placed (puzzle : Puzzle) (ns : List Node) : Prop where
  few : puzzle.fixedNodes.length ≤ 256
  order : InOrder ns
  fixed_iff : ∀ n ∈ ns, n.fixed = true ↔ n.slot.toNat < puzzle.fixedNodes.length
  fixed : ∀ (i : Nat) (c : NodeClass), puzzle.fixedNodes[i]? = some c →
    ∃ n ∈ ns, n.slot.toNat = i ∧ n.nodeClass = c
  intact : ∀ n ∈ ns, n.reset.error = none → Intact n

variable {puzzle : Puzzle} {ns ms : List Node}

theorem Placed.fixedNodes_eq (h : Placed puzzle ns) {n : Node} (hn : n ∈ ns) :
    puzzle.fixedNodes[n.slot.toNat]? = if n.fixed then some n.nodeClass else none := by
  split_ifs with hfixed
  · have hget := List.getElem?_eq_getElem ((h.fixed_iff n hn).mp hfixed)
    obtain ⟨m, hm, hslot, hclass⟩ := h.fixed _ _ hget
    obtain rfl := h.order.eq_of_slot hm hn (UInt8.toNat_inj.mp hslot)
    rw [hget, hclass]
  · apply List.getElem?_eq_none_iff.mpr
    exact Nat.not_lt.mp fun hlt => hfixed ((h.fixed_iff n hn).mpr hlt)

theorem fields_of_reset {m n : Node} (h : m.reset = n.reset) :
    m.slot = n.slot ∧ m.nodeClass = n.nodeClass ∧ m.fixed = n.fixed ∧ m.program = n.program := by
  have hslot := congrArg Node.slot h
  have hclass := congrArg Node.nodeClass h
  have hfixed := congrArg Node.fixed h
  have hprogram := congrArg Node.program h
  exact ⟨hslot, hclass, hfixed, hprogram⟩

theorem Placed.of_reset (h : Placed puzzle ns) (heq : ns.map Node.reset = ms.map Node.reset) :
    Placed puzzle ms := by
  have hslots : ns.map Node.slot = ms.map Node.slot := map_eq_of_reset (fun _ => rfl) heq
  have hback : ∀ m ∈ ms, ∃ n ∈ ns, n.reset = m.reset := by
    intro m hm
    have hmem : m.reset ∈ ns.map Node.reset := heq ▸ List.mem_map_of_mem hm
    obtain ⟨n, hn, he⟩ := List.mem_map.mp hmem
    exact ⟨n, hn, he⟩
  refine ⟨h.few, ?_, ?_, ?_, ?_⟩
  · have horder : (ns.map Node.slot).Pairwise (· < ·) := List.pairwise_map.mpr h.order
    rw [hslots] at horder
    exact List.pairwise_map.mp horder
  · intro m hm
    obtain ⟨n, hn, he⟩ := hback m hm
    obtain ⟨hslot, -, hfixed, -⟩ := fields_of_reset he
    rw [← hfixed, ← hslot]
    exact h.fixed_iff n hn
  · intro i c hc
    obtain ⟨n, hn, hi, hclass⟩ := h.fixed i c hc
    have hmem : n.reset ∈ ms.map Node.reset := heq ▸ List.mem_map_of_mem hn
    obtain ⟨m, hm, he⟩ := List.mem_map.mp hmem
    obtain ⟨hslot, hclass', -, -⟩ := fields_of_reset he
    exact ⟨m, hm, hslot ▸ hi, hclass'.trans hclass⟩
  · intro m hm herror
    obtain ⟨n, hn, he⟩ := hback m hm
    obtain ⟨-, hclass, -, hprogram⟩ := fields_of_reset he
    rw [Intact, ← hprogram, ← hclass]
    rw [← he] at herror
    exact h.intact n hn herror

theorem ofPuzzle_eq_ok {settings : Settings} {sim : Simulation}
    (h : ofPuzzle puzzle settings = .ok sim) :
    puzzle.fixedNodes.length ≤ 256 ∧
      sim = { puzzle, settings
              nodes := puzzle.fixedNodes.zipIdx.map fun c =>
                { nodeClass := c.1, slot := UInt8.ofNat c.2, fixed := true } } := by
  unfold ofPuzzle at h
  split_ifs at h with hfew
  exact ⟨hfew, (Except.ok.inj h).symm⟩

theorem mem_of_ofPuzzle {settings : Settings} {sim : Simulation} {n : Node}
    (h : ofPuzzle puzzle settings = .ok sim) (hn : n ∈ sim.nodes) :
    ∃ nodeClass slot, n = { nodeClass, slot, fixed := true } := by
  obtain ⟨-, rfl⟩ := ofPuzzle_eq_ok h
  obtain ⟨c, -, rfl⟩ := List.mem_map.mp hn
  exact ⟨_, _, rfl⟩

theorem placed_ofPuzzle {settings : Settings} {sim : Simulation}
    (h : ofPuzzle puzzle settings = .ok sim) : Placed puzzle sim.nodes := by
  obtain ⟨hfew, rfl⟩ := ofPuzzle_eq_ok h
  have hslot : ∀ {c : NodeClass} {i : Nat}, (c, i) ∈ puzzle.fixedNodes.zipIdx →
      i < puzzle.fixedNodes.length ∧ (UInt8.ofNat i).toNat = i := by
    intro c i hmem
    have hi := List.snd_lt_of_mem_zipIdx hmem
    exact ⟨by simpa using hi, UInt8.toNat_ofNat_of_lt' (by simpa using Nat.lt_of_lt_of_le hi hfew)⟩
  refine ⟨hfew, ?_, ?_, ?_, ?_⟩
  · apply List.pairwise_map.mpr
    have hlt : puzzle.fixedNodes.zipIdx.Pairwise fun a b => a.2 < b.2 := by
      apply List.pairwise_map.mp
      rw [List.zipIdx_map_snd]
      exact List.pairwise_lt_range'
    refine hlt.imp_of_mem ?_
    rintro ⟨c, i⟩ ⟨d, j⟩ hi hj hij
    apply UInt8.lt_iff_toNat_lt.mpr
    rw [(hslot hi).2, (hslot hj).2]
    exact hij
  · rintro n hn
    obtain ⟨⟨c, i⟩, hmem, rfl⟩ := List.mem_map.mp hn
    obtain ⟨hi, hnat⟩ := hslot hmem
    simp only [hnat, hi]
  · intro i c hc
    have hmem : (c, i) ∈ puzzle.fixedNodes.zipIdx := List.mem_zipIdx_iff_getElem?.mpr hc
    exact ⟨_, List.mem_map_of_mem hmem, (hslot hmem).2, rfl⟩
  · rintro n hn -
    obtain ⟨⟨c, i⟩, hmem, rfl⟩ := List.mem_map.mp hn
    exact ⟨fun i hi => absurd hi List.not_mem_nil, Nat.zero_le _⟩

theorem Placed.insertNode (h : Placed puzzle ns) {nodeClass : NodeClass} {slot : UInt8}
    (hfree : ∀ n ∈ ns, n.slot ≠ slot) :
    Placed puzzle (Simulation.insertNode { nodeClass, slot } ns) := by
  refine ⟨h.few, h.order.insertNode hfree, ?_, ?_, ?_⟩
  · intro n hn
    rcases mem_insertNode.mp hn with rfl | hn
    · -- a slot of the puzzle is never free
      refine iff_of_false Bool.false_ne_true ?_
      intro hlt
      obtain ⟨n, hn, hi, -⟩ := h.fixed _ _ (List.getElem?_eq_getElem hlt)
      exact hfree n hn (UInt8.toNat_inj.mp hi)
    · exact h.fixed_iff n hn
  · intro i c hc
    obtain ⟨n, hn, hi⟩ := h.fixed i c hc
    exact ⟨n, mem_insertNode.mpr (.inr hn), hi⟩
  · intro n hn herror
    rcases mem_insertNode.mp hn with rfl | hn
    · exact ⟨fun i hi => absurd hi List.not_mem_nil, Nat.zero_le _⟩
    · exact h.intact n hn herror

theorem Placed.remove (h : Placed puzzle ns) {node : Node} (hnode : node ∈ ns)
    (hfixed : node.fixed = false) : Placed puzzle (ns.filter fun n => n.slot ≠ node.slot) := by
  refine ⟨h.few, h.order.filter _, ?_, ?_, ?_⟩
  · intro n hn
    exact h.fixed_iff n (List.mem_filter.mp hn).1
  · intro i c hc
    obtain ⟨n, hn, hi, hclass⟩ := h.fixed i c hc
    refine ⟨n, List.mem_filter.mpr ⟨hn, decide_eq_true ?_⟩, hi, hclass⟩
    intro hslot
    have hlt : i < puzzle.fixedNodes.length := (List.getElem?_eq_some_iff.mp hc).1
    rw [h.order.eq_of_slot hn hnode hslot] at hi
    have hfix := (h.fixed_iff node hnode).mpr (hi ▸ hlt)
    rw [hfixed] at hfix
    cases hfix
  · intro n hn
    exact h.intact n (List.mem_filter.mp hn).1

theorem assemble_length {source : String} {capacity : Nat}
    (h : (assemble source capacity).error = none) :
    (assemble source capacity).program.length ≤ capacity := by
  have hlines : (Text.lines source.toList).length ≤ capacity := by
    by_contra hlt
    simp [assemble, Nat.lt_of_not_le hlt] at h
  refine Nat.le_trans ?_ hlines
  simp only [assemble, Program.resolve, List.length_map, List.length_zipIdx]
  refine Nat.le_trans (List.length_filterMap_le _ _) ?_
  rw [List.length_map, List.length_zipIdx]

theorem setProgram_error (node : Node) (source : String) :
    (node.setProgram source).reset.error = (node.assemble source).error.map NodeError.static := by
  simp only [Node.setProgram, Node.install, Node.reset]
  cases (node.assemble source).error <;> rfl

theorem Placed.replace (h : Placed puzzle ns) {node : Node} (hnode : node ∈ ns) {source : String}
    (hcode : (node.assemble source).error = none →
      ∃ text, (node.assemble source).program.verifiedCode = .ok text) :
    Placed puzzle
      (ns.map fun n => if n.slot = (node.setProgram source).slot then node.setProgram source else n) := by
  -- the node that is replaced is the one that was given the program
  have hold : ∀ n ∈ ns, n.slot = (node.setProgram source).slot → n = node :=
    fun n hn hs => h.order.eq_of_slot hn hnode hs
  refine ⟨h.few, ?_, ?_, ?_, ?_⟩
  · apply List.pairwise_map.mpr
    refine h.order.imp ?_
    intro m n hlt
    split_ifs with hm hn hn
    · rw [hm, hn] at hlt
      exact hlt
    · rw [← hm]
      exact hlt
    · rw [← hn]
      exact hlt
    · exact hlt
  · intro n hn
    obtain ⟨m, hm, rfl⟩ := List.mem_map.mp hn
    split_ifs with hs
    · exact h.fixed_iff node hnode
    · exact h.fixed_iff m hm
  · intro i c hc
    obtain ⟨n, hn, hi, hclass⟩ := h.fixed i c hc
    refine ⟨_, List.mem_map_of_mem hn, ?_⟩
    split_ifs with hs
    · obtain rfl := hold n hn hs
      exact ⟨hi, hclass⟩
    · exact ⟨hi, hclass⟩
  · intro n hn herror
    obtain ⟨m, hm, rfl⟩ := List.mem_map.mp hn
    split_ifs at herror ⊢ with hs
    · rw [setProgram_error, Option.map_eq_none_iff] at herror
      obtain ⟨text, htext⟩ := hcode herror
      exact ⟨(Program.verifiedCode_eq_ok_iff.mp htext).1, assemble_length herror⟩
    · exact h.intact m hm herror

theorem Edited.placed {s t : Simulation} (h : Edited s t) (hs : Placed puzzle s.nodes) :
    Placed puzzle t.nodes := by
  induction h with
  | refl => exact hs
  | addNode _ hu ih =>
    obtain ⟨hfree, rfl⟩ := addNode_eq_ok hu
    exact ih.insertNode (node?_eq_none hfree)
  | removeNode _ hu ih =>
    obtain ⟨hnode, hfixed, rfl⟩ := removeNode_eq_ok hu
    obtain ⟨hmem, rfl⟩ := node?_eq_some hnode
    rw [liftHalt_nodes]
    exact ih.remove hmem hfixed
  | setProgram _ hu ih =>
    obtain ⟨node, hnode, rfl, hcode⟩ := setProgram_eq_ok hu
    rw [liftHalt_nodes]
    exact ih.replace (node?_eq_some hnode).1 hcode

/-- What is placed well stays so, whatever is done. -/
theorem Operated.placed {s t : Simulation} {op : Operation} {events : List Event}
    (h : Operated s op events t) (hs : Placed s.puzzle s.nodes) :
    Placed t.puzzle t.nodes := by
  have hreset : ∀ ns : List Node, ns.map Node.reset = (ns.map Node.reset).map Node.reset := by
    intro ns
    rw [List.map_map]
    exact List.map_congr_left fun n _ => n.reset_reset.symm
  cases h with
  | edited _ he =>
    have hplaced := he.placed hs
    obtain ⟨nodes, channels, halted, rfl⟩ := he.same_run
    exact hplaced
  | started => exact hs.of_reset (hreset _)
  | paused => exact hs
  | resumed => exact hs
  | stopped => exact hs.of_reset (hreset _)
  | ticked =>
    have hpuzzle : s.tick.after.puzzle = s.puzzle := by
      have ht := s.tick_ticked
      generalize s.tick = t at ht
      cases ht <;> rfl
    rw [hpuzzle]
    exact hs.of_reset s.tick_reset.symm

theorem Reachable.placed {sim : Simulation} (h : Reachable sim) : Placed sim.puzzle sim.nodes := by
  induction h with
  | @ofPuzzle puzzle settings sim hp =>
    have hplaced := placed_ofPuzzle hp
    obtain ⟨-, rfl⟩ := ofPuzzle_eq_ok hp
    exact hplaced
  | @ofCode puzzle settings text sim hc =>
    obtain ⟨bare, hbare, hedited⟩ := ofCode_edited hc
    have hplaced := hedited.placed (placed_ofPuzzle hbare)
    obtain ⟨nodes, channels, halted, rfl⟩ := hedited.same_run
    obtain ⟨-, rfl⟩ := ofPuzzle_eq_ok hbare
    exact hplaced
  | after op _ ih => exact (operated op _).placed ih

end Simulation
end Lockstep
