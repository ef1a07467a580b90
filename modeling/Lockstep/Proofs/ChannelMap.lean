import Lockstep.Proofs.Invariants
import Lockstep.Proofs.Mixing

/-!
The channel map is always what the nodes broadcast. It is mixed anew by some operations, cleared by
others and left alone by the rest, and in every simulation that can be reached it has the clamped
sum of the broadcasts on each channel. A node cannot read a channel it broadcasts on, so what it
reads comes from the others alone.
-/
namespace Lockstep

theorem onChannel_append (id : UInt32) (bs cs : List Broadcast) :
    onChannel id (bs ++ cs) = onChannel id bs ++ onChannel id cs := by
  rw [onChannel, List.filter_append, List.map_append]
  rfl

theorem onChannel_eq_nil_iff {id : UInt32} {bs : List Broadcast} :
    onChannel id bs = [] ↔ id ∉ bs.map (·.1) := by
  rw [onChannel, List.map_eq_nil_iff, List.filter_eq_nil_iff]
  constructor
  · intro h hmem
    obtain ⟨b, hb, rfl⟩ := List.mem_map.mp hmem
    exact h b hb (decide_eq_true rfl)
  · intro h b hb hid
    rw [← of_decide_eq_true hid] at h
    exact h (List.mem_map_of_mem hb)

theorem onChannel_lookup {id : UInt32} {bs : List Broadcast} (h : (bs.map (·.1)).Nodup) :
    onChannel id bs = (bs.lookup id).toList := by
  induction bs with
  | nil => rfl
  | cons b bs ih =>
    obtain ⟨c, v⟩ := b
    obtain ⟨hc, hbs⟩ := List.nodup_cons.mp h
    by_cases hid : c = id
    · subst hid
      have hrest : onChannel c bs = [] := onChannel_eq_nil_iff.mpr hc
      have hone : onChannel c ((c, v) :: bs) = v :: onChannel c bs := by simp [onChannel]
      rw [hone, hrest, List.lookup_cons_self, Option.toList_some]
    · have hskip : onChannel id ((c, v) :: bs) = onChannel id bs := by simp [onChannel, hid]
      have hne : (id == c) = false := beq_false_of_ne (Ne.symm hid)
      rw [hskip, ih hbs, List.lookup_cons, hne]

namespace Node
variable {n : Node} {σ : Type}

def share (id : UInt32) (n : Node) : Int := (n.broadcast? id).getD 0

theorem Tuned.sum_onChannel (h : n.Tuned) (id : UInt32) :
    (onChannel id n.broadcasts).sum = n.share id := by
  rw [onChannel_lookup h.distinct, share, broadcast?]
  cases n.broadcasts.lookup id <;> simp

theorem share_of_not_active {id : UInt32} (h : id ∉ n.active) : n.share id = 0 := by
  have hnone : n.broadcasts.lookup id = none := by
    apply List.lookup_eq_none_iff.mpr
    intro b hb
    apply bne_iff_ne.mpr
    rintro rfl
    exact h (List.mem_map_of_mem hb)
  rw [share, broadcast?, hnone, Option.getD_none]

theorem Tuned.share_range (h : n.Tuned) (id : UInt32) : -490 ≤ n.share id ∧ n.share id ≤ 490 := by
  rw [share, broadcast?]
  cases hb : n.broadcasts.lookup id with
  | none => simp
  | some v =>
    obtain ⟨before, after, hsplit, -⟩ := List.lookup_eq_some_iff.mp hb
    obtain ⟨-, hclamp⟩ := h.value (id, v) (by simp [hsplit])
    exact clamp_eq_self_iff.mp hclamp

/-- A step depends on the channels that the node does not broadcast on, and on no others. -/
theorem step_congr {ch hears : Channels} (h : ∀ id, id ∉ n.active → ch.value id = hears.value id)
    (t : Terminal σ) (s : σ) : n.step t ch s = n.step t hears s := by
  -- a channel of its own is refused whatever its value, and every other is read alike
  have hread : readOperand t ch n = readOperand t hears n := by
    funext op u
    cases op with
    | channel id =>
      simp only [readOperand]
      split_ifs with hid
      · rfl
      · rw [h id hid]
    | register r => cases r <;> rfl
    | immediate v => rfl
    | offset d => rfl
    | label name => rfl
  have hjump : jump t ch n = jump t hears n := by
    funext i u
    simp only [jump, jumpDistance, hread]
  have hmove : move t ch n = move t hears n := by
    funext i u
    simp only [move, move.moveFrom, hread]
  have hbranch : branch t ch n = branch t hears n := by
    funext c i u
    simp only [branch, hread, hjump]
  have hexecute : execute t ch n = execute t hears n := by
    funext i u
    simp only [execute, hmove, hjump, hbranch]
  simp only [step, hexecute]

end Node

namespace Exchange

def stepEach (offer : Offer) (hears : Node → Channels) :
    List Node → Exchange → List Node × Exchange × Option (UInt8 × NodeError)
  | [], x => ([], x, none)
  | node :: rest, x =>
    match stepNode offer (hears node) node x with
    | (after, x', failure) =>
      match stepEach offer hears rest x' with
      | (others, x'', later) => (after :: others, x'', failure <|> later)

theorem stepNodes_eq_stepEach {offer : Offer} {ch : Channels} {hears : Node → Channels}
    {ns : List Node} (h : ∀ n ∈ ns, ∀ id, id ∉ n.active → ch.value id = (hears n).value id)
    (x : Exchange) : stepNodes offer ch ns x = stepEach offer hears ns x := by
  induction ns generalizing x with
  | nil => rfl
  | cons n ns ih =>
    have hstep : stepNode offer ch n x = stepNode offer (hears n) n x := by
      simp only [stepNode, Node.step_congr (h n (.head _))]
    simp only [stepNodes, stepEach, hstep, ih fun m hm => h m (.tail _ hm)]

end Exchange

namespace Simulation

def total (ns : List Node) (id : UInt32) : Int := (ns.map (Node.share id)).sum

theorem total_cons (n : Node) (ns : List Node) (id : UInt32) :
    total (n :: ns) id = n.share id + total ns id := by
  rw [total, List.map_cons, List.sum_cons]
  rfl

theorem sum_onChannel {ns : List Node} (h : ∀ n ∈ ns, n.Tuned) (id : UInt32) :
    (onChannel id (broadcastsOf ns)).sum = total ns id := by
  induction ns with
  | nil => rfl
  | cons n ns ih =>
    have hsplit : broadcastsOf (n :: ns) = n.broadcasts ++ broadcastsOf ns := rfl
    rw [hsplit, onChannel_append, List.sum_append, (h n (.head _)).sum_onChannel, total_cons,
      ih fun m hm => h m (.tail _ hm)]

theorem onChannel_broadcastsOf {ns : List Node} {id : UInt32} :
    onChannel id (broadcastsOf ns) = [] ↔ ∀ n ∈ ns, id ∉ n.active := by
  simp only [onChannel_eq_nil_iff, broadcastsOf, List.map_flatMap, List.mem_flatMap, not_exists,
    not_and]
  rfl

theorem total_eq_zero {ns : List Node} {id : UInt32} (h : ∀ n ∈ ns, id ∉ n.active) :
    total ns id = 0 := by
  induction ns with
  | nil => rfl
  | cons n ns ih =>
    rw [total_cons, Node.share_of_not_active (h n (.head _)), ih fun m hm => h m (.tail _ hm)]
    rfl

theorem value_mixChannels {ns : List Node} (h : ∀ n ∈ ns, n.Tuned) (id : UInt32) :
    (mixChannels ns).value id = clamp (total ns id) := by
  rw [Channels.value, mixChannels_find?]
  split_ifs with hnone
  · rw [total_eq_zero (onChannel_broadcastsOf.mp hnone)]
    rfl
  · rw [sum_onChannel h, Option.getD_some]

/-! The map and its nodes, through every operation. -/

theorem mixChannels_silent {ns : List Node} (h : ∀ n ∈ ns, n.broadcasts = []) :
    mixChannels ns = .empty := by
  have hnone : broadcastsOf ns = [] := List.flatMap_eq_nil_iff.mpr h
  rw [mixChannels_eq, hnone]
  rfl

theorem mixChannels_reset (ns : List Node) : mixChannels (ns.map Node.reset) = .empty := by
  apply mixChannels_silent
  intro n hn
  obtain ⟨m, -, rfl⟩ := List.mem_map.mp hn
  rfl

theorem insertNode_perm (node : Node) (ns : List Node) : (insertNode node ns).Perm (node :: ns) := by
  induction ns with
  | nil => exact List.Perm.refl _
  | cons n ns ih =>
    unfold insertNode
    split_ifs
    · exact List.Perm.refl _
    · exact (ih.cons n).trans (List.Perm.swap node n ns)

theorem mixChannels_insertNode {node : Node} (h : node.broadcasts = []) (ns : List Node) :
    mixChannels (insertNode node ns) = mixChannels ns := by
  rw [mixChannels_perm ((insertNode_perm node ns).map Node.broadcasts)]
  have hsame : broadcastsOf (node :: ns) = broadcastsOf ns := by
    rw [broadcastsOf, List.flatMap_cons, h]
    rfl
  rw [mixChannels_eq, mixChannels_eq, hsame]

theorem channels_remix (sim : Simulation) :
    sim.remix.liftHalt.channels = mixChannels sim.remix.liftHalt.nodes := by
  obtain ⟨halted, hl⟩ := liftHalt_eq sim.remix
  rw [hl]
  rfl

theorem invariant_channels : Invariant fun sim => sim.channels = mixChannels sim.nodes where
  ofPuzzle := by
    intro puzzle settings sim h
    have hsilent : ∀ n ∈ sim.nodes, n.broadcasts = [] := by
      intro n hn
      obtain ⟨nodeClass, slot, rfl⟩ := mem_of_ofPuzzle h hn
      rfl
    rw [mixChannels_silent hsilent, (ofPuzzle_eq_ok h).2]
  addNode := by
    intro s t nodeClass slot h hs
    obtain ⟨-, rfl⟩ := addNode_eq_ok h
    -- a new node is silent, so the old map is still right
    exact hs.trans (mixChannels_insertNode rfl s.nodes).symm
  removeNode := by
    intro s t node slot h _
    obtain ⟨-, -, rfl⟩ := removeNode_eq_ok h
    exact channels_remix _
  setProgram := by
    intro s t slot source h _
    obtain ⟨node, -, rfl, -⟩ := setProgram_eq_ok h
    exact channels_remix _
  start := fun _ _ _ => (mixChannels_reset _).symm
  pause := fun _ hs => hs
  resume := fun _ hs => hs
  stop := fun _ => (mixChannels_reset _).symm
  tick := by
    intro s hs
    have ht := s.tick_ticked
    generalize s.tick = t at ht
    cases ht with
    | idle => exact hs
    | halted => rfl
    | advanced => rfl
    | setPassed => exact (mixChannels_reset _).symm
    | won => rfl

theorem Reachable.channels_eq {sim : Simulation} (h : Reachable sim) :
    sim.channels = mixChannels sim.nodes :=
  invariant_channels.reachable h

/-! What a node hears. -/

def others (sim : Simulation) (n : Node) : List Node := sim.nodes.filter fun m => m.slot ≠ n.slot

theorem nodes_perm {sim : Simulation} (h : InOrder sim.nodes) {n : Node} (hn : n ∈ sim.nodes) :
    sim.nodes.Perm (n :: sim.others n) := by
  have hnot : n ∉ sim.others n := by simp [others]
  have hnodup : (n :: sim.others n).Nodup := List.nodup_cons.mpr ⟨hnot, h.nodup.filter _⟩
  apply (List.perm_ext_iff_of_nodup h.nodup hnodup).mpr
  intro m
  simp only [List.mem_cons, others, List.mem_filter, decide_eq_true_eq]
  constructor
  · intro hm
    by_cases hslot : m.slot = n.slot
    · exact .inl (h.eq_of_slot hm hn hslot)
    · exact .inr ⟨hm, hslot⟩
  · rintro (rfl | hm)
    · exact hn
    · exact hm.1

theorem total_others {sim : Simulation} (h : InOrder sim.nodes) {n : Node} (hn : n ∈ sim.nodes)
    {id : UInt32} (hid : id ∉ n.active) : total sim.nodes id = total (sim.others n) id := by
  have hperm := (nodes_perm h hn).map (Node.share id)
  have hsum : total sim.nodes id = total (n :: sim.others n) id := hperm.sum_eq
  rw [hsum, total_cons, Node.share_of_not_active hid, zero_add]

theorem InOrder.length_le {ns : List Node} (h : InOrder ns) : ns.length ≤ 256 := by
  have hnodup : (ns.map fun n => n.slot.toNat).Nodup := by
    have hmap : (ns.map fun n => n.slot.toNat) = (ns.map Node.slot).map UInt8.toNat := by
      rw [List.map_map]
      rfl
    rw [hmap]
    exact h.slots_nodup.map fun a b hab => UInt8.toNat_inj.mp hab
  have hsub : (ns.map fun n => n.slot.toNat) ⊆ List.range 256 := by
    intro k hk
    obtain ⟨n, -, rfl⟩ := List.mem_map.mp hk
    exact List.mem_range.mpr n.slot.toNat_lt
  have hlen := (List.subperm_of_subset hnodup hsub).length_le
  rwa [List.length_map, List.length_range] at hlen

theorem total_range {ns : List Node} (h : ∀ n ∈ ns, n.Tuned) (id : UInt32) :
    -490 * (ns.length : Int) ≤ total ns id ∧ total ns id ≤ 490 * (ns.length : Int) := by
  induction ns with
  | nil => exact ⟨Int.le_refl _, Int.le_refl _⟩
  | cons n ns ih =>
    obtain ⟨hlow, hhigh⟩ := ih fun m hm => h m (.tail _ hm)
    obtain ⟨hn, hn'⟩ := (h n (.head _)).share_range id
    rw [total_cons, List.length_cons]
    omega

/-- The channel map says what the nodes broadcast, and each node hears the others through it. -/
structure ChannelsTrue (sim : Simulation) : Prop where
  sorted : sim.channels.Sorted
  present : ∀ id, (∃ v, sim.channels.find? id = some v) ↔ ∃ n ∈ sim.nodes, id ∈ n.active
  value : ∀ id v, sim.channels.find? id = some v → v = clamp (total sim.nodes id)
  /-- No sum on the way there leaves the 64-bit words. -/
  fits : ∀ id ns, ns.Sublist sim.nodes →
    Int64.minValue.toInt ≤ total ns id ∧ total ns id ≤ Int64.maxValue.toInt
  /-- A channel that is read has the sum of what the other nodes broadcast there. -/
  heard : ∀ n ∈ sim.nodes, ∀ (σ : Type) (t : Terminal σ) (s : σ) (id : UInt32) (v : Int),
    (n.readOperand t sim.channels (.channel id) s).1 = .ok v →
    id ∉ n.active ∧ v = clamp (total (sim.others n) id)
  tick : sim.steps = Exchange.stepEach sim.offer (fun n => mixChannels (sim.others n)) sim.nodes
    { output := sim.output }

/-- The channel map is the true aggregate, whatever has been done to the simulation. -/
theorem channels_true (sim : Simulation) (hreach : Reachable sim) : ChannelsTrue sim := by
  have hmix := hreach.channels_eq
  have htuned := hreach.tuned
  have horder := hreach.placed.order
  have hothers : ∀ n, ∀ m ∈ sim.others n, m.Tuned := fun n m hm => htuned m (List.mem_filter.mp hm).1
  have hvalue : ∀ id, sim.channels.value id = clamp (total sim.nodes id) := by
    rw [hmix]
    exact value_mixChannels htuned
  refine ⟨hmix ▸ mixChannels_sorted _, ?_, ?_, ?_, ?_, ?_⟩
  · intro id
    have hactive : (∃ n ∈ sim.nodes, id ∈ n.active) ↔ ¬ ∀ n ∈ sim.nodes, id ∉ n.active := by
      simp only [not_forall, not_not, exists_prop]
    rw [hactive, ← onChannel_broadcastsOf, hmix, mixChannels_find?]
    split_ifs with hnone
    · simp [hnone]
    · simp [hnone]
  · intro id v hv
    rw [← hvalue, Channels.value, hv, Option.getD_some]
  · intro id ns hns
    obtain ⟨hlow, hhigh⟩ := total_range (fun n hn => htuned n (hns.subset hn)) id
    have hlen := Nat.le_trans hns.length_le horder.length_le
    rw [Int64.toInt_minValue, Int64.toInt_maxValue]
    omega
  · intro n hn σ t s id v hv
    -- a read succeeds only where the node itself broadcasts nothing
    simp only [Node.readOperand] at hv
    split_ifs at hv with hid
    refine ⟨hid, ?_⟩
    rw [← total_others horder hn hid, ← hvalue]
    exact (Except.ok.inj hv).symm
  · apply Exchange.stepNodes_eq_stepEach
    intro n hn id hid
    rw [hvalue, value_mixChannels (hothers n), total_others horder hn hid]

/-- Two nodes that broadcast on one channel, more together than a channel carries, and a third that
listens. -/
def choir : Simulation :=
  vacant.afterAll
    [.addNode .tiny 0, .setProgram 0 "MOV CH1 300", .addNode .tiny 1, .setProgram 1 "MOV CH1 400",
      .addNode .tiny 2, .setProgram 2 "MOV ACC CH1", .start, .tick]

theorem channels_true_choir :
    Reachable choir ∧ choir.channels = ⟨[(1, 490)]⟩ ∧ ChannelsTrue choir :=
  ⟨reachable_vacant _, by decide +kernel, channels_true choir (reachable_vacant _)⟩

end Simulation
end Lockstep
