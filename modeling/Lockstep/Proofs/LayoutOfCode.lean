import Lockstep.Proofs.Restoring

/-!
What a simulation is like that a text gives. The text has to be the code of a layout with the
classes that the puzzle asks for. The nodes are then those of the code in the order of their slots,
with an empty one in each slot of the puzzle that the code leaves out.
-/
namespace Lockstep

namespace Code

/-! Every instruction takes a character of the code. -/

theorem length_instructions {index : Nat} {p : Program} {code : List Char}
    (h : instructionsFrom index p = .ok code) : List.length p ≤ code.length := by
  induction p generalizing index code with
  | nil => exact Nat.zero_le _
  | cons i p ih =>
    obtain ⟨-, ops, more, -, hmore, rfl⟩ := instructionsFrom_cons h
    have hrest := ih hmore
    simp only [List.length_cons, List.length_append]
    omega

theorem length_entries {taken : List UInt8} {l : Layout} {code : List Char}
    (h : entries taken l = .ok code) : ∀ e ∈ l, List.length e.program ≤ code.length := by
  induction l generalizing taken code with
  | nil => nofun
  | cons e l ih =>
    obtain ⟨-, program, more, hprogram, hmore, rfl⟩ := entries_cons h
    have hfirst := length_instructions hprogram
    have hrest := ih hmore
    simp only [List.length_cons, List.length_append]
    refine List.forall_mem_cons.mpr ⟨by omega, ?_⟩
    intro f hf
    have hle := hrest f hf
    omega

end Code

theorem Layout.length_decode {text : String} {l : Layout} (h : decode text = .ok l) :
    ∀ e ∈ l, List.length e.program ≤ text.length := by
  obtain ⟨hcode, -⟩ := Code.spans_entries (c := ⟨0, text.toList⟩) (Nat.le_refl _) h
  rw [← String.length_toList]
  exact Code.length_entries hcode

def Puzzle.leftOut (puzzle : Puzzle) (l : Layout) : Layout :=
  (puzzle.fixedNodes.zipIdx.map fun c => LayoutEntry.mk c.1 (UInt8.ofNat c.2) []).filter fun f =>
    f.slot ∉ l.map (·.slot)

/-- A layout with the puzzle's own nodes, in the order of their slots. -/
def Layout.completed (l : Layout) (puzzle : Puzzle) : Layout :=
  (l ++ puzzle.leftOut l).mergeSort fun a b => a.slot ≤ b.slot

namespace Layout

theorem eq_mergeSort {α : Type} {slot : α → UInt8} {l m : List α}
    (hs : l.Pairwise fun a b => slot a < slot b) (hp : l.Perm m) :
    l = m.mergeSort fun a b => slot a ≤ slot b := by
  have hslots : (l.map slot).Nodup := List.pairwise_map.mpr (hs.imp fun h => UInt8.ne_of_lt h)
  have htrans : ∀ a b c : α, decide (slot a ≤ slot b) = true →
      decide (slot b ≤ slot c) = true → decide (slot a ≤ slot c) = true := by
    intro a b c hab hbc
    exact decide_eq_true (UInt8.le_trans (of_decide_eq_true hab) (of_decide_eq_true hbc))
  have htotal : ∀ a b : α, (decide (slot a ≤ slot b) || decide (slot b ≤ slot a)) = true := by
    intro a b
    simpa using UInt8.le_total (slot a) (slot b)
  have hsorted := (List.pairwise_mergeSort htrans htotal m).imp of_decide_eq_true
  have hperm := hp.trans (List.mergeSort_perm m fun a b => slot a ≤ slot b).symm
  refine hperm.eq_of_pairwise ?_ (hs.imp fun h => UInt8.le_of_lt h) hsorted
  intro a b ha hb hab hba
  exact List.inj_on_of_nodup_map hslots ha (hperm.mem_iff.mpr hb) (UInt8.le_antisymm hab hba)

theorem completed_eq_self {puzzle : Puzzle} {l : Layout}
    (hs : l.Pairwise fun a b => a.slot < b.slot)
    (hall : ∀ i < puzzle.fixedNodes.length, ∃ e ∈ l, e.slot.toNat = i) :
    l.completed puzzle = l := by
  have hnone : puzzle.leftOut l = [] := by
    apply List.filter_eq_nil_iff.mpr
    intro f hf
    obtain ⟨⟨c, i⟩, hi, rfl⟩ := List.mem_map.mp hf
    obtain ⟨e, he, rfl⟩ := hall i (by simpa using List.snd_lt_of_mem_zipIdx hi)
    simpa using ⟨e, he, rfl⟩
  rw [completed, hnone, List.append_nil]
  exact (eq_mergeSort hs (.refl l)).symm

end Layout

namespace Simulation
variable {puzzle : Puzzle} {settings : Settings} {bare sim : Simulation} {l : Layout}

theorem hasRoom_iff (h : ofPuzzle puzzle settings = .ok bare) (e : LayoutEntry) :
    bare.HasRoom e ↔ ∀ c, puzzle.fixedNodes[e.slot.toNat]? = some c → e.nodeClass = c := by
  rw [HasRoom, ofPuzzle_node? h]
  cases puzzle.fixedNodes[e.slot.toNat]? with
  | none =>
    refine ⟨?_, fun _ => .inl rfl⟩
    intro _ c hc
    cases hc
  | some c =>
    constructor
    · rintro (hfree | ⟨node, hnode, -, hclass⟩) d hd
      · cases hfree
      · cases hnode
        cases hd
        exact hclass.symm
    · intro hclass
      exact .inr ⟨_, rfl, rfl, (hclass c rfl).symm⟩

theorem host_nodeClass {e : LayoutEntry} (h : bare.HasRoom e) :
    (bare.host e).nodeClass = e.nodeClass := by
  rcases h with hfree | ⟨node, hnode, -, hclass⟩
  · rw [host, hfree, Option.getD_none]
  · rw [host, hnode, Option.getD_some, hclass]

theorem leftOut_eq (hbare : ofPuzzle puzzle settings = .ok bare) (l : Layout) :
    puzzle.leftOut l = bare.layout.filter fun f => f.slot ∉ l.map (·.slot) := by
  obtain ⟨-, rfl⟩ := ofPuzzle_eq_ok hbare
  rw [Puzzle.leftOut, layout, List.map_map]
  rfl

section Restored

variable (hbare : ofPuzzle puzzle settings = .ok bare) (hslots : (l.map (·.slot)).Nodup)
  (hlisted : ∀ e ∈ l, ∀ n : Node, n.setProgram e.program.listing = n.listed e.program)
  (h : l.foldlM placeEntry bare = .ok sim)
include hbare hslots hlisted h

theorem mem_restored {m : Node} :
    m ∈ sim.nodes ↔ (∃ e ∈ l, m = (bare.host e).listed e.program) ∨
      m ∈ bare.nodes ∧ m.slot ∉ l.map (·.slot) := by
  rw [mem_placed hbare hslots h]
  refine or_congr (exists_congr fun e => and_congr_right fun he => ?_) ?_
  · rw [hlisted e he]
  · simp only [List.mem_map, not_exists, not_and, ne_eq]

theorem mem_layout_restored {f : LayoutEntry} :
    f ∈ sim.layout ↔ f ∈ l ∨ f ∈ puzzle.leftOut l := by
  have hentry : ∀ e ∈ l, e =
      ⟨((bare.host e).listed e.program).nodeClass, (bare.host e).slot, e.program⟩ := by
    intro e he
    have hclass := host_nodeClass (hasRoom_of_foldlM hslots h e he)
    rw [host_slot]
    exact congrArg (LayoutEntry.mk · e.slot e.program) hclass.symm
  simp only [leftOut_eq hbare, layout, List.mem_map, List.mem_filter, decide_eq_true_eq]
  constructor
  · rintro ⟨m, hm, rfl⟩
    rcases (mem_restored hbare hslots hlisted h).mp hm with ⟨e, he, rfl⟩ | ⟨hm, hout⟩
    · exact .inl (hentry e he ▸ he)
    · exact .inr ⟨⟨m, hm, rfl⟩, List.mem_map.not.mp hout⟩
  · rintro (he | ⟨⟨m, hm, rfl⟩, hout⟩)
    · exact ⟨_, (mem_restored hbare hslots hlisted h).mpr (.inl ⟨f, he, rfl⟩), (hentry f he).symm⟩
    · have hslot := List.mem_map.not.mpr hout
      exact ⟨m, (mem_restored hbare hslots hlisted h).mpr (.inr ⟨hm, hslot⟩), rfl⟩

theorem layout_restored : sim.layout = l.completed puzzle := by
  have hplaced := placed_ofPuzzle hbare
  have horder := ((foldlM_placeEntry_edited h).placed hplaced).order
  refine Layout.eq_mergeSort (List.pairwise_map.mpr horder) ?_
  -- neither list has an entry twice, so it is enough that they have the same ones
  refine (List.perm_ext_iff_of_nodup (layout_slots_nodup horder).of_map ?_).mpr ?_
  · rw [leftOut_eq hbare]
    refine hslots.of_map.append ((layout_slots_nodup hplaced.order).of_map.filter _) ?_
    intro e he hf
    exact of_decide_eq_true (List.mem_filter.mp hf).2 (List.mem_map_of_mem he)
  · intro f
    rw [List.mem_append]
    exact mem_layout_restored hbare hslots hlisted h

theorem error_restored {n : Node} (hn : n ∈ sim.nodes) :
    n.error =
      if n.nodeClass.lines < List.length n.program then
        some (.static ⟨n.nodeClass.lines - 1, .tooManyLines n.nodeClass.lines⟩)
      else none := by
  rcases (mem_restored hbare hslots hlisted h).mp hn with ⟨e, -, rfl⟩ | ⟨hn, -⟩
  · rfl
  · obtain ⟨nodeClass, slot, rfl⟩ := mem_of_ofPuzzle hbare hn
    exact (if_neg (Nat.not_lt_zero _)).symm

end Restored

/-- A text is taken for a puzzle when it is the code of a layout with the classes of the puzzle. The
simulation then has that layout, completed by what the puzzle has placed, and the programs are as
they were encoded, those included that are too long for their nodes. What is said of them is said of
texts whose length can be taken for a signed word, as a distance in a program is. -/
theorem restored_from_code (puzzle : Puzzle) (settings : Settings) (text : String)
    (hfew : puzzle.fixedNodes.length ≤ 256) :
    ((∃ sim, ofCode puzzle settings text = .ok sim) ↔
      ∃ l, Layout.decode text = .ok l ∧
        ∀ e ∈ l, ∀ c, puzzle.fixedNodes[e.slot.toNat]? = some c → e.nodeClass = c) ∧
    ∀ sim l, ofCode puzzle settings text = .ok sim → Layout.decode text = .ok l →
      (∀ n ∈ sim.nodes, n.fixed = true ↔ n.slot.toNat < puzzle.fixedNodes.length) ∧
      (text.length < 2 ^ 63 →
        sim.layout = l.completed puzzle ∧
        (∀ n ∈ sim.nodes, n.error =
          if n.nodeClass.lines < List.length n.program then
            some (.static ⟨n.nodeClass.lines - 1, .tooManyLines n.nodeClass.lines⟩)
          else none) ∧
        (l.Pairwise (fun a b => a.slot < b.slot) →
          (∀ i < puzzle.fixedNodes.length, ∃ e ∈ l, e.slot.toNat = i) →
          sim.encodeLayout = .ok text)) := by
  obtain ⟨bare, hbare⟩ : ∃ bare, ofPuzzle puzzle settings = .ok bare := ⟨_, if_pos hfew⟩
  refine ⟨⟨?_, ?_⟩, ?_⟩
  · rintro ⟨sim, h⟩
    obtain ⟨l, bare', hl, hbare', hplaced⟩ := ofCode_eq_ok_iff.mp h
    refine ⟨l, hl, fun e he => (hasRoom_iff hbare' e).mp ?_⟩
    exact hasRoom_of_foldlM (Layout.encode_of_decode hl).2.1 hplaced e he
  · rintro ⟨l, hl, hclass⟩
    have hroom : ∀ e ∈ l, bare.HasRoom e := fun e he => (hasRoom_iff hbare e).mpr (hclass e he)
    obtain ⟨sim, hsim, -⟩ := foldlM_placeEntry_ok (Layout.encode_of_decode hl).2.1 hroom
    exact ⟨sim, ofCode_eq_ok_iff.mpr ⟨l, bare, hl, hbare, hsim⟩⟩
  · intro sim l h hl
    obtain ⟨l', bare', hl', hbare', hplaced⟩ := ofCode_eq_ok_iff.mp h
    obtain rfl : l' = l := Except.ok.inj (hl'.symm.trans hl)
    obtain ⟨hcode, hslots, hwell⟩ := Layout.encode_of_decode hl
    refine ⟨((foldlM_placeEntry_edited hplaced).placed (placed_ofPuzzle hbare')).fixed_iff, ?_⟩
    intro hshort
    have hlisted : ∀ e ∈ l', ∀ n : Node, n.setProgram e.program.listing = n.listed e.program := by
      intro e he n
      have hle := Layout.length_decode hl e he
      refine n.setProgram_listing (hwell e he).1 (hwell e he).2 ?_
      simp only [UInt64.size]
      omega
    have hlayout := layout_restored hbare' hslots hlisted hplaced
    refine ⟨hlayout, fun n hn => error_restored hbare' hslots hlisted hplaced hn, ?_⟩
    intro horder hall
    rw [encodeLayout, hlayout, Layout.completed_eq_self horder hall, hcode]

def gallery : Puzzle :=
  { id := "gallery", title := "", goal := "", sets := [], fixedNodes := [.tiny, .small] }

def crowded : LayoutEntry := ⟨.tiny, 0, (List.range 5).map fun line => ⟨.inc, [], line⟩⟩

def visitor : LayoutEntry := ⟨.standard, 9, [⟨.mov, [.register .acc, .register .input], 0⟩]⟩

theorem restored_from_code_gallery :
    gallery.fixedNodes.length ≤ 256 ∧
    (Layout.decode "@c9mAI@a0iiiii" = .ok [visitor, crowded] ∧
      "@c9mAI@a0iiiii".length < 2 ^ 63 ∧
      ∃ sim, ofCode gallery {} "@c9mAI@a0iiiii" = .ok sim ∧
        sim.layout = [crowded, ⟨.small, 1, []⟩, visitor]) ∧
    (Layout.decode "@a0iiiii@b1@c9mAI" = .ok [crowded, ⟨.small, 1, []⟩, visitor] ∧
      ∃ sim, ofCode gallery {} "@a0iiiii@b1@c9mAI" = .ok sim ∧
        sim.encodeLayout = .ok "@a0iiiii@b1@c9mAI") := by
  have hfew : gallery.fixedNodes.length ≤ 256 := by decide
  refine ⟨hfew, ?_, ?_⟩
  · have hl : Layout.decode "@c9mAI@a0iiiii" = .ok [visitor, crowded] := by decide +kernel
    have hshort : "@c9mAI@a0iiiii".length < 2 ^ 63 := by decide +kernel
    have htext := restored_from_code gallery {} "@c9mAI@a0iiiii" hfew
    obtain ⟨sim, hsim⟩ := htext.1.mpr ⟨_, hl, by decide⟩
    have hlayout := ((htext.2 sim _ hsim hl).2 hshort).1
    refine ⟨hl, hshort, sim, hsim, hlayout.trans ?_⟩
    exact (Layout.eq_mergeSort (by decide) (by decide)).symm
  · have hl : Layout.decode "@a0iiiii@b1@c9mAI" = .ok [crowded, ⟨.small, 1, []⟩, visitor] := by
      decide +kernel
    have htext := restored_from_code gallery {} "@a0iiiii@b1@c9mAI" hfew
    obtain ⟨sim, hsim⟩ := htext.1.mpr ⟨_, hl, by decide⟩
    have hback := ((htext.2 sim _ hsim hl).2 (by decide +kernel)).2.2
    exact ⟨hl, sim, hsim, hback (by decide) (by decide)⟩

end Simulation
end Lockstep
