import Lockstep.Proofs.LayoutCode
import Lockstep.Proofs.Verifying

/-!
A layout that is restored from its code. Every entry is placed by itself, in a slot that is free or
that the puzzle has filled with a node of the same class; the simulation that comes out has the
nodes of the one that was encoded, each with the listing of its program for a source.
-/
namespace Lockstep

namespace Simulation

theorem find?_insertNode {node : Node} {ns : List Node} (hfree : ∀ n ∈ ns, n.slot ≠ node.slot)
    (slot : UInt8) :
    (insertNode node ns).find? (fun n => n.slot = slot) =
      if slot = node.slot then some node else ns.find? fun n => n.slot = slot := by
  induction ns with
  | nil =>
    by_cases h : slot = node.slot
    · simp [insertNode, h]
    · simp [insertNode, h, Ne.symm h]
  | cons m ns ih =>
    have hm := hfree m (.head _)
    have hrest := ih fun n hn => hfree n (.tail _ hn)
    unfold insertNode
    split_ifs with hlt hslot hslot
    · simp [hslot]
    · simp [List.find?_cons, Ne.symm hslot]
    · rw [if_pos hslot] at hrest
      rw [List.find?_cons_of_neg (by simpa [hslot] using hm), hrest]
    · rw [if_neg hslot] at hrest
      rw [List.find?_cons, List.find?_cons, hrest]

theorem node?_replaceNode (sim : Simulation) {node old : Node}
    (hold : sim.node? node.slot = some old) (slot : UInt8) :
    (sim.replaceNode node).node? slot =
      if slot = node.slot then some node else sim.node? slot := by
  have hslot : ∀ n : Node, (if n.slot = node.slot then node else n).slot = n.slot := by
    intro n
    split_ifs with h
    · exact h.symm
    · rfl
  have hfind : (sim.replaceNode node).node? slot =
      (sim.node? slot).map fun n => if n.slot = node.slot then node else n := by
    simp only [node?, replaceNode, List.find?_map, Function.comp_def, hslot]
  rw [hfind]
  split_ifs with h
  · rw [h, hold, Option.map_some, if_pos (node?_eq_some hold).2]
  · cases hn : sim.node? slot with
    | none => rfl
    | some n =>
      rw [Option.map_some, (node?_eq_some hn).2, if_neg h]

theorem node?_setProgram {sim after : Simulation} {slot : UInt8} {node : Node} {source : String}
    (hnode : sim.node? slot = some node) (h : sim.setProgram slot source = .ok after) (s : UInt8) :
    after.node? s = if s = slot then some (node.setProgram source) else sim.node? s := by
  rw [setProgram_ok hnode] at h
  cases h
  have hslot : (node.setProgram source).slot = slot := (node?_eq_some hnode).2
  have hreplaced := sim.node?_replaceNode (hslot.symm ▸ hnode) s
  rw [hslot] at hreplaced
  rw [node?, liftHalt_nodes]
  exact hreplaced

def HasRoom (sim : Simulation) (e : LayoutEntry) : Prop :=
  sim.node? e.slot = none ∨
    ∃ node, sim.node? e.slot = some node ∧ node.fixed ∧ node.nodeClass = e.nodeClass

def host (sim : Simulation) (e : LayoutEntry) : Node :=
  (sim.node? e.slot).getD { nodeClass := e.nodeClass, slot := e.slot }

theorem hasRoom_of_placeEntry {sim after : Simulation} {e : LayoutEntry}
    (h : sim.placeEntry e = .ok after) : sim.HasRoom e := by
  unfold placeEntry at h
  split at h
  · rename_i node hnode
    split_ifs at h with hheld
    exact .inr ⟨node, hnode, hheld⟩
  · rename_i hfree
    exact .inl hfree

theorem placeEntry_ok {sim : Simulation} {e : LayoutEntry} (hroom : sim.HasRoom e) :
    ∃ after, sim.placeEntry e = .ok after ∧ ∀ slot, after.node? slot =
      if slot = e.slot then some ((sim.host e).setProgram e.program.listing)
      else sim.node? slot := by
  rcases hroom with hfree | ⟨node, hnode, hheld⟩
  · have hhost : sim.host e = { nodeClass := e.nodeClass, slot := e.slot } := by
      rw [host, hfree, Option.getD_none]
    obtain ⟨placed, hplaced⟩ : ∃ placed, sim.addNode e.nodeClass e.slot = .ok placed :=
      ⟨_, by rw [addNode, hfree]⟩
    have hfound : ∀ slot, placed.node? slot =
        if slot = e.slot then some (sim.host e) else sim.node? slot := by
      intro slot
      rw [(addNode_eq_ok hplaced).2, hhost]
      exact find?_insertNode (node?_eq_none hfree) slot
    have hhere : placed.node? e.slot = some (sim.host e) := by
      rw [hfound, if_pos rfl]
    obtain ⟨after, hset⟩ : ∃ after, placed.setProgram e.slot e.program.listing = .ok after :=
      ⟨_, setProgram_ok hhere _⟩
    refine ⟨after, ?_, ?_⟩
    · simp only [placeEntry, hfree, hplaced, bind, Except.bind]
      exact hset
    · intro slot
      rw [node?_setProgram hhere hset]
      split_ifs with hs
      · rfl
      · rw [hfound, if_neg hs]
  · have hhost : sim.host e = node := by rw [host, hnode, Option.getD_some]
    obtain ⟨after, hset⟩ : ∃ after, sim.setProgram e.slot e.program.listing = .ok after :=
      ⟨_, setProgram_ok hnode _⟩
    refine ⟨after, ?_, ?_⟩
    · simp only [placeEntry, hnode]
      rw [if_pos hheld]
      exact hset
    · rw [hhost]
      exact node?_setProgram hnode hset

theorem hasRoom_of_foldlM {entries : Layout} {sim after : Simulation}
    (hslots : (entries.map (·.slot)).Nodup) (h : entries.foldlM placeEntry sim = .ok after) :
    ∀ e ∈ entries, sim.HasRoom e := by
  induction entries generalizing sim with
  | nil => nofun
  | cons e entries ih =>
    obtain ⟨hslot, hrest⟩ := List.nodup_cons.mp hslots
    rw [List.foldlM_cons] at h
    obtain ⟨placed, hplaced, h⟩ := bind_eq_ok h
    have hroom := hasRoom_of_placeEntry hplaced
    obtain ⟨placed', hplaced', hfound⟩ := placeEntry_ok hroom
    obtain rfl : placed' = placed := Except.ok.inj (hplaced'.symm.trans hplaced)
    refine List.forall_mem_cons.mpr ⟨hroom, ?_⟩
    intro f hf
    have hf' := ih hrest h f hf
    rwa [HasRoom, hfound, if_neg fun hs => hslot (List.mem_map.mpr ⟨f, hf, hs⟩)] at hf'

theorem foldlM_placeEntry_ok {entries : Layout} {sim : Simulation}
    (hslots : (entries.map (·.slot)).Nodup) (hroom : ∀ e ∈ entries, sim.HasRoom e) :
    ∃ after, entries.foldlM placeEntry sim = .ok after ∧
      (∀ e ∈ entries, after.node? e.slot =
        some ((sim.host e).setProgram e.program.listing)) ∧
      ∀ slot, (∀ e ∈ entries, e.slot ≠ slot) → after.node? slot = sim.node? slot := by
  induction entries generalizing sim with
  | nil => exact ⟨sim, rfl, fun e he => absurd he List.not_mem_nil, fun _ _ => rfl⟩
  | cons e entries ih =>
    obtain ⟨hslot, hrest⟩ := List.nodup_cons.mp hslots
    obtain ⟨placed, hplaced, hfound⟩ := placeEntry_ok (hroom e (.head _))
    have hother : ∀ f ∈ entries, placed.node? f.slot = sim.node? f.slot := by
      intro f hf
      rw [hfound, if_neg fun hs => hslot (List.mem_map.mpr ⟨f, hf, hs⟩)]
    have hroom' : ∀ f ∈ entries, placed.HasRoom f := by
      intro f hf
      have hf' := hroom f (.tail _ hf)
      rwa [HasRoom, ← hother f hf] at hf'
    obtain ⟨after, hafter, hin, hout⟩ := ih hrest hroom'
    refine ⟨after, ?_, ?_, ?_⟩
    · simp only [List.foldlM_cons, bind, Except.bind, hplaced]
      exact hafter
    · intro f hf
      rcases List.mem_cons.mp hf with rfl | hf
      · rw [hout f.slot fun k hk hs => hslot (List.mem_map.mpr ⟨k, hk, hs⟩), hfound, if_pos rfl]
      · rw [hin f hf, host, hother f hf]
        rfl
    · intro slot hne
      rw [hout slot fun f hf => hne f (.tail _ hf), hfound, if_neg (hne e (.head _)).symm]

end Simulation

namespace Program

theorem linedFrom_linedFrom (p : Program) (k l : Nat) :
    (p.linedFrom k).linedFrom l = p.linedFrom l := by
  induction p generalizing k l with
  | nil => rfl
  | cons i p ih => simp only [linedFrom, ih]

end Program

namespace Node

def listed (n : Node) (p : Program) : Node :=
  { nodeClass := n.nodeClass
    slot := n.slot
    fixed := n.fixed
    source := p.listing
    program := p
    lineCount := List.length p
    error :=
      if n.nodeClass.lines < List.length p then
        some (.static ⟨n.nodeClass.lines - 1, .tooManyLines n.nodeClass.lines⟩)
      else none }

theorem setProgram_listing (n : Node) {p : Program} (hp : p.WellFormed) (hlines : p.relined = p)
    (hlen : 2 * List.length p < UInt64.size) : n.setProgram p.listing = n.listed p := by
  simp only [setProgram, assemble, assemble_listing hp hlen, hlines, install, reset, listed]
  split_ifs <;> rfl

/-- The node as it is restored from a code. -/
def restored (n : Node) : Node :=
  { nodeClass := n.nodeClass
    slot := n.slot
    fixed := n.fixed
    source := n.program.relined.listing
    program := n.program.relined
    lineCount := List.length n.program }

def entry (n : Node) : LayoutEntry := ⟨n.nodeClass, n.slot, n.program.relined⟩

theorem setProgram_relined {n : Node} (hp : n.program.WellFormed)
    (hlen : List.length n.program ≤ n.nodeClass.lines) :
    ({ nodeClass := n.nodeClass, slot := n.slot, fixed := n.fixed } : Node).setProgram
      n.program.relined.listing = n.restored := by
  have hlength : List.length n.program.relined = List.length n.program :=
    Program.length_linedFrom 0 n.program
  have hshort : 2 * List.length n.program.relined < UInt64.size := by
    have hlines := n.nodeClass.lines_le
    simp only [UInt64.size]
    omega
  have hwf : n.program.relined.WellFormed := hp.linedFrom 0
  have hlined : n.program.relined.relined = n.program.relined := Program.linedFrom_linedFrom _ _ _
  rw [setProgram_listing _ hwf hlined hshort, listed, hlength, if_neg (Nat.not_lt.mpr hlen)]
  rfl

end Node

namespace Simulation

theorem ofPuzzle_fixed {puzzle : Puzzle} {settings : Settings} {bare : Simulation}
    (h : ofPuzzle puzzle settings = .ok bare) {m : Node} (hm : m ∈ bare.nodes) : m.fixed := by
  obtain ⟨nodeClass, slot, rfl⟩ := mem_of_ofPuzzle h hm
  rfl

theorem ofPuzzle_node? {puzzle : Puzzle} {settings : Settings} {bare : Simulation}
    (h : ofPuzzle puzzle settings = .ok bare) (slot : UInt8) :
    bare.node? slot = puzzle.fixedNodes[slot.toNat]?.map fun c =>
      { nodeClass := c, slot := slot, fixed := true } := by
  have hplaced := placed_ofPuzzle h
  cases hget : puzzle.fixedNodes[slot.toNat]? with
  | some c =>
    refine hplaced.order.find?_eq_some (n := { nodeClass := c, slot := slot, fixed := true }) ?_
    obtain ⟨-, rfl⟩ := ofPuzzle_eq_ok h
    refine List.mem_map.mpr ⟨(c, slot.toNat), List.mem_zipIdx_iff_getElem?.mpr hget, ?_⟩
    simp
  | none =>
    cases hfound : bare.node? slot with
    | none => rfl
    | some m =>
      obtain ⟨hm, rfl⟩ := node?_eq_some hfound
      have hlt := (hplaced.fixed_iff m hm).mp (ofPuzzle_fixed h hm)
      exact absurd hlt (Nat.not_lt.mpr (List.getElem?_eq_none_iff.mp hget))

section PlacedEntry

variable {puzzle : Puzzle} {settings : Settings} {bare : Simulation} {ns : List Node} {n : Node}

theorem host_entry (hbare : ofPuzzle puzzle settings = .ok bare) (h : Placed puzzle ns)
    (hn : n ∈ ns) :
    bare.host n.entry = { nodeClass := n.nodeClass, slot := n.slot, fixed := n.fixed } := by
  have hnode : bare.node? n.entry.slot = _ := ofPuzzle_node? hbare n.slot
  rw [host, hnode, h.fixedNodes_eq hn]
  cases hf : n.fixed <;> rfl

theorem hasRoom_entry (hbare : ofPuzzle puzzle settings = .ok bare) (h : Placed puzzle ns)
    (hn : n ∈ ns) : bare.HasRoom n.entry := by
  have hnode : bare.node? n.entry.slot = _ := ofPuzzle_node? hbare n.slot
  rw [HasRoom, hnode, h.fixedNodes_eq hn]
  split_ifs with hf
  · exact .inr ⟨_, rfl, rfl, rfl⟩
  · exact .inl rfl

theorem exists_slot_of_bare (hbare : ofPuzzle puzzle settings = .ok bare) (h : Placed puzzle ns)
    {m : Node} (hm : m ∈ bare.nodes) : ∃ n ∈ ns, n.slot = m.slot := by
  have hlt := ((placed_ofPuzzle hbare).fixed_iff m hm).mp (ofPuzzle_fixed hbare hm)
  obtain ⟨n, hn, hi, -⟩ := h.fixed _ _ (List.getElem?_eq_getElem hlt)
  exact ⟨n, hn, UInt8.toNat_inj.mp hi⟩

end PlacedEntry

theorem host_slot (sim : Simulation) (e : LayoutEntry) : (sim.host e).slot = e.slot := by
  rw [host]
  cases h : sim.node? e.slot with
  | none => rfl
  | some node => exact (node?_eq_some h).2

/-- The nodes after a layout is placed: one for each entry, and those of the puzzle that no entry
stands for. -/
theorem mem_placed {puzzle : Puzzle} {settings : Settings} {bare after : Simulation}
    {entries : Layout} (hbare : ofPuzzle puzzle settings = .ok bare)
    (hslots : (entries.map (·.slot)).Nodup) (h : entries.foldlM placeEntry bare = .ok after)
    {m : Node} :
    m ∈ after.nodes ↔ (∃ e ∈ entries, m = (bare.host e).setProgram e.program.listing) ∨
      m ∈ bare.nodes ∧ ∀ e ∈ entries, e.slot ≠ m.slot := by
  have hplaced := placed_ofPuzzle hbare
  have horder := ((foldlM_placeEntry_edited h).placed hplaced).order
  obtain ⟨after', h', hin, hout⟩ := foldlM_placeEntry_ok hslots (hasRoom_of_foldlM hslots h)
  obtain rfl : after' = after := Except.ok.inj (h'.symm.trans h)
  constructor
  · intro hm
    have hfound : after'.node? m.slot = some m := horder.find?_eq_some hm
    by_cases hmem : ∃ e ∈ entries, e.slot = m.slot
    · obtain ⟨e, he, hslot⟩ := hmem
      have hhere := hin e he
      rw [hslot, hfound] at hhere
      exact .inl ⟨e, he, Option.some.inj hhere⟩
    · have hne : ∀ e ∈ entries, e.slot ≠ m.slot := fun e he hs => hmem ⟨e, he, hs⟩
      rw [hout m.slot hne] at hfound
      exact .inr ⟨(node?_eq_some hfound).1, hne⟩
  · rintro (⟨e, he, rfl⟩ | ⟨hm, hne⟩)
    · exact (node?_eq_some (hin e he)).1
    · have hfound : bare.node? m.slot = some m := hplaced.order.find?_eq_some hm
      rw [← hout m.slot hne] at hfound
      exact (node?_eq_some hfound).1

theorem place_entries {puzzle : Puzzle} {settings : Settings} {bare : Simulation}
    (hbare : ofPuzzle puzzle settings = .ok bare) {ns : List Node} (h : Placed puzzle ns)
    (hintact : ∀ n ∈ ns, Intact n) :
    ∃ copy, (ns.map Node.entry).foldlM placeEntry bare = .ok copy ∧
      copy.nodes = ns.map Node.restored := by
  have hslots : ((ns.map Node.entry).map (·.slot)).Nodup := by
    rw [List.map_map]
    exact h.order.slots_nodup
  have hroom : ∀ e ∈ ns.map Node.entry, bare.HasRoom e := by
    intro e he
    obtain ⟨n, hn, rfl⟩ := List.mem_map.mp he
    exact hasRoom_entry hbare h hn
  have hrestored : ∀ n ∈ ns,
      (bare.host n.entry).setProgram n.entry.program.listing = n.restored := by
    intro n hn
    rw [host_entry hbare h hn]
    exact Node.setProgram_relined (hintact n hn).1 (hintact n hn).2
  obtain ⟨copy, hcopy, -, -⟩ := foldlM_placeEntry_ok hslots hroom
  have horder := ((foldlM_placeEntry_edited hcopy).placed (placed_ofPuzzle hbare)).order
  refine ⟨copy, hcopy, horder.ext (List.pairwise_map.mpr h.order) ?_⟩
  intro m
  rw [mem_placed hbare hslots hcopy, List.mem_map]
  constructor
  · rintro (⟨e, he, rfl⟩ | ⟨hm, hne⟩)
    · obtain ⟨n, hn, rfl⟩ := List.mem_map.mp he
      exact ⟨n, hn, (hrestored n hn).symm⟩
    · obtain ⟨n, hn, hslot⟩ := exists_slot_of_bare hbare h hm
      exact absurd hslot (hne n.entry (List.mem_map_of_mem hn))
  · rintro ⟨n, hn, rfl⟩
    exact .inl ⟨n.entry, List.mem_map_of_mem hn, (hrestored n hn).symm⟩

theorem layout_slots_nodup {sim : Simulation} (h : InOrder sim.nodes) :
    (sim.layout.map (·.slot)).Nodup := by
  rw [layout, List.map_map]
  exact h.slots_nodup

/-- A layout without errors is restored from its code. -/
theorem restore {sim : Simulation} (h : Placed sim.puzzle sim.nodes)
    (herror : ∀ n ∈ sim.nodes, n.error = none) :
    ∃ text copy, sim.encodeLayout = .ok text ∧ ofCode sim.puzzle sim.settings text = .ok copy ∧
      copy.puzzle = sim.puzzle ∧ copy.settings = sim.settings ∧ copy.mode = .edit ∧
      copy.nodes = sim.nodes.map Node.restored := by
  have hintact : ∀ n ∈ sim.nodes, Intact n := by
    intro n hn
    apply h.intact n hn
    simp [Node.reset, herror n hn]
  have hentries : ∀ e ∈ sim.layout, e.program.WellFormed := by
    intro e he
    obtain ⟨n, hn, rfl⟩ := List.mem_map.mp he
    exact (hintact n hn).1
  obtain ⟨text, hencode, hdecode⟩ := Layout.encode_wellFormed hentries (layout_slots_nodup h.order)
  have hcode : sim.layout.map LayoutEntry.relined = sim.nodes.map Node.entry := by
    rw [layout, List.map_map]
    rfl
  obtain ⟨bare, hbare⟩ : ∃ bare, ofPuzzle sim.puzzle sim.settings = .ok bare :=
    ⟨_, if_pos h.few⟩
  obtain ⟨copy, hcopy, hnodes⟩ := place_entries hbare h hintact
  refine ⟨text, copy, by rw [encodeLayout, hencode], ?_, ?_⟩
  · exact ofCode_eq_ok_iff.mpr ⟨_, bare, hdecode, hbare, hcode ▸ hcopy⟩
  · obtain ⟨nodes, channels, halted, rfl⟩ := (foldlM_placeEntry_edited hcopy).same_run
    obtain ⟨-, rfl⟩ := ofPuzzle_eq_ok hbare
    exact ⟨rfl, rfl, rfl, hnodes⟩

end Simulation
end Lockstep
