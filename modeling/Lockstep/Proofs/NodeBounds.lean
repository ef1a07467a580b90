import Lockstep.Proofs.Assembling
import Lockstep.Proofs.Invariants
import Lockstep.Proofs.Mixing

/-!
The bounds that a node keeps, however it is programmed and run. Because of them a step can be
computed with words: `stepInWords` gives up at every number that is no word and at every index with
nothing there, and it never has to.
-/
namespace Lockstep

namespace Node
variable {σ : Type} {t : Terminal σ} {ch : Channels} {n m : Node} {s : σ}

/-! The channels in the order they were turned on, and the values by channel, kept apart: turning a
broadcast on or off changes both of them alike. -/

theorem find?_broadcastTable (h : n.active.Nodup) (id : UInt32) :
    n.broadcastTable.find? id = Table.findIn id n.broadcasts :=
  Table.find?_ofList h id

theorem mem_active_iff (h : n.active.Nodup) {id : UInt32} :
    id ∈ n.active ↔ n.broadcastTable.contains id = true := by
  rw [Table.contains, find?_broadcastTable h, Table.findIn_isSome_iff]
  rfl

theorem broadcast_table {id : UInt32} {v : Int} (hn : n.active.Nodup)
    (h : n.broadcast id v = .ok m) :
    m.broadcastTable =
      if v = 0 then n.broadcastTable.erase id else n.broadcastTable.insert id v := by
  have hm : m.active.Nodup := broadcast_nodup h hn
  have hsorted : n.broadcastTable.Sorted := Table.sorted_ofList _
  have hsorted' : m.broadcastTable.Sorted := Table.sorted_ofList _
  unfold broadcast at h
  -- sorted tables that agree on every channel are the same
  split_ifs at h ⊢ with hv hid
  · refine hsorted'.ext (hsorted.erase id) fun k => ?_
    rw [find?_broadcastTable hm, Table.find?_erase, find?_broadcastTable hn]
    cases h
    exact Table.findIn_filter id k n.broadcasts
  · refine hsorted'.ext (hsorted.insert id v) fun k => ?_
    obtain ⟨w, hw⟩ := Option.isSome_iff_exists.mp (Table.findIn_isSome_iff.mpr hid)
    rw [find?_broadcastTable hm, Table.find?_insert hsorted, find?_broadcastTable hn]
    cases h
    rw [Table.findIn_replace, hw, Option.map_some]
  · cases h
    exact List.foldl_append

theorem broadcast_apart (hn : n.active.Nodup) (id : UInt32) (v : Int) :
    (n.broadcast id v).map (fun m => (m.active, m.broadcastTable)) =
      broadcastApart n.nodeClass.channels n.active n.broadcastTable id v := by
  have hlength : n.active.length = n.broadcasts.length := List.length_map _
  simp only [broadcastApart, ← mem_active_iff hn, hlength]
  cases hm : n.broadcast id v with
  | ok m =>
    rw [Except.map, broadcast_active hm, broadcast_table hn hm]
    unfold broadcast at hm
    split_ifs at hm ⊢ <;> rfl
  | error e =>
    unfold broadcast at hm
    split_ifs at hm ⊢
    cases hm
    rfl

theorem broadcastApart_few {limit : Nat} {active active' : List UInt32} {values values' : Channels}
    {id : UInt32} {v : Int} (h : broadcastApart limit active values id v = .ok (active', values'))
    (hfew : active.length ≤ limit) : active'.length ≤ limit := by
  unfold broadcastApart at h
  split_ifs at h with hv hid hroom
  · cases h
    exact (List.length_filter_le _ _).trans hfew
  · cases h
    exact hfew
  · cases h
    rw [List.length_append]
    exact hroom

/-- What a node keeps to at all times. -/
structure Sound (n : Node) : Prop where
  tuned : n.Tuned
  acc : clamp n.acc = n.acc
  pc : n.pc < List.length n.program ∨ n.program = [] ∧ n.pc = 0
  few : n.active.length ≤ n.nodeClass.channels
  still : ∀ e, n.error = some (.static e) → n.acc = 0 ∧ n.pc = 0 ∧ n.broadcasts = []
  short : n.reset.error = none → List.length n.program ≤ n.nodeClass.lines

theorem sound_of_rest (hacc : n.acc = 0) (hpc : n.pc = 0) (hsilent : n.broadcasts = [])
    (hshort : n.reset.error = none → List.length n.program ≤ n.nodeClass.lines) : n.Sound where
  tuned := tuned_of_silent hsilent
  acc := by
    rw [hacc]
    rfl
  pc := by
    rw [hpc]
    by_cases hp : n.program = []
    · exact .inr ⟨hp, rfl⟩
    · exact .inl (List.length_pos_iff.mpr hp)
  few := by
    rw [active, hsilent]
    exact Nat.zero_le _
  still := fun _ _ => ⟨hacc, hpc, hsilent⟩
  short := hshort

theorem reset_error_of_none (h : n.error = none) : n.reset.error = none := by
  rw [reset, h]
  rfl

theorem Sound.advance (h : n.Sound) (hn : n.error = none) (hp : n.program ≠ []) (distance : Nat) :
    (n.advance distance).Sound where
  tuned := ⟨h.tuned.distinct, h.tuned.value⟩
  acc := h.acc
  pc := .inl (Nat.mod_lt _ (List.length_pos_iff.mpr hp))
  few := h.few
  still := fun _ he => absurd (hn.symm.trans he) nofun
  short := h.short

theorem Sound.fail (h : n.Sound) (hn : n.error = none) (line : Nat) (fault : RuntimeFault) :
    (n.fail line fault).Sound where
  tuned := ⟨h.tuned.distinct, h.tuned.value⟩
  acc := h.acc
  pc := h.pc
  few := h.few
  still := nofun
  short := fun _ => h.short (reset_error_of_none hn)

theorem Sound.effect {i : Instruction} (h : n.Sound) (hn : n.error = none) (he : n.Effect i m) :
    m.Sound where
  tuned := h.tuned.effect he
  acc := by
    cases he with
    | none => exact h.acc
    | stored value => exact clamp_clamp value
    | broadcast hop hops hzero hm =>
      rw [broadcast_eq_ok hm]
      exact h.acc
  pc := by
    rw [he.frame]
    exact h.pc
  few := by
    cases he with
    | none => exact h.few
    | stored value => exact h.few
    | @broadcast id source value _ hop hops hzero hm =>
      have happart := broadcast_apart h.tuned.distinct id (clamp value)
      rw [hm] at happart
      have hclass : m.nodeClass = n.nodeClass := by rw [broadcast_eq_ok hm]
      rw [hclass]
      exact broadcastApart_few happart.symm h.few
  still := fun _ hs => absurd ((he.error.trans hn).symm.trans hs) nofun
  short := by
    rw [he.frame]
    exact fun _ => h.short (reset_error_of_none hn)

theorem sound_enduring : Enduring Sound where
  reset n h := sound_of_rest rfl rfl rfl fun he => h.short (by rwa [reset_reset] at he)
  clearAccWritten n h := ⟨⟨h.tuned.distinct, h.tuned.value⟩, h.acc, h.pc, h.few, h.still, h.short⟩
  step := by
    intro n m r hstep h
    cases hstep with
    | idle => exact h
    | continued hn hi he =>
      have hm := h.effect hn he
      refine hm.advance (he.error.trans hn) ?_ 1
      rw [he.frame]
      exact List.ne_nil_of_mem hi
    | jumped hn hp distance => exact h.advance hn hp distance
    | failed hn fault => exact h.fail hn _ fault

/-- The nodes that an empty one becomes, however it is programmed and run. -/
inductive Reachable : Node → Prop
  | new (nodeClass : NodeClass) (slot : UInt8) (fixed : Bool) : Reachable { nodeClass, slot, fixed }
  | setProgram {n : Node} (h : Reachable n) (source : String) : Reachable (n.setProgram source)
  | run {n m : Node} (h : Reachable n) (hr : n.Reaches m) : Reachable m

theorem sound_setProgram (n : Node) (source : String) : (n.setProgram source).Sound := by
  refine sound_of_rest rfl rfl rfl fun he => ?_
  rw [Simulation.setProgram_error, Option.map_eq_none_iff] at he
  exact Simulation.assemble_length he

theorem Reachable.sound (h : n.Reachable) : n.Sound := by
  induction h with
  | new nodeClass slot fixed => exact sound_of_rest rfl rfl rfl fun _ => Nat.zero_le _
  | setProgram _ source _ => exact sound_setProgram _ source
  | run _ hr ih => exact sound_enduring.reaches hr ih

end Node

inductive WordFault where
  | overflow
  | outside
  deriving Repr, DecidableEq

namespace Word

def signed (v : Int) : Except WordFault Int :=
  if Int64.minValue.toInt ≤ v ∧ v ≤ Int64.maxValue.toInt then .ok v else .error .overflow

def unsigned (v : Nat) : Except WordFault Nat :=
  if v < UInt64.size then .ok v else .error .overflow

def saturated (v : Int) : Int := max Int64.minValue.toInt (min v Int64.maxValue.toInt)

def index : Except DistanceOverflow Int32 → Except WordFault Nat
  | .error _ => .error .overflow
  | .ok distance => if distance.toInt < 0 then .error .overflow else .ok distance.toInt.toNat

theorem wrapDistanceChecked_eq {length : Nat} (hlen : 2 * length < UInt64.size) (d : Int) :
    wrapDistanceChecked length d = .ok (wrapDistance length d) := by
  refine if_neg ?_
  rw [bmod_length hlen]
  rintro ⟨hminus, -⟩
  omega

theorem wrapDistance_lt {length : Nat} (hpos : length ≠ 0) (hsize : length ≤ 15) (d : Int) :
    0 ≤ (wrapDistance length d).toInt ∧ (wrapDistance length d).toInt < length := by
  refine wrapDistance_range hpos ?_ d
  simp only [UInt32.size]
  omega

theorem index_wrapDistanceChecked {length : Nat} (hpos : length ≠ 0) (hsize : length ≤ 15)
    (d : Int) :
    index (wrapDistanceChecked length d) = .ok (wrapDistance length d).toInt.toNat := by
  have hlen : 2 * length < UInt64.size := by
    simp only [UInt64.size]
    omega
  rw [wrapDistanceChecked_eq hlen]
  exact if_neg (Int.not_lt.mpr (wrapDistance_lt hpos hsize d).1)

end Word

namespace Node
variable {σ : Type}

def jumpInWords (terminal : Terminal σ) (channels : Channels) (n : Node) (i : Instruction) (s : σ) :
    Except WordFault (Except RuntimeFault (Node × Option Nat) × σ) :=
  match i.target? with
  | none => .ok (.error .missingTarget, s)
  | some target =>
    match n.readOperand terminal channels target s with
    | (.error fault, s') => .ok (.error fault, s')
    | (.ok distance, s') => do
      let distance ← Word.index (wrapDistanceChecked n.program.length distance)
      return (.ok (n, some distance), s')

def branchInWords (terminal : Terminal σ) (channels : Channels) (n : Node) (condition : Condition)
    (i : Instruction) (s : σ) : Except WordFault (Except RuntimeFault (Node × Option Nat) × σ) :=
  match i.operands.head? with
  | none => .ok (.error .missingChannel, s)
  | some tested =>
    match n.readOperand terminal channels tested s with
    | (.error fault, s') => .ok (.error fault, s')
    | (.ok value, s') =>
      if condition.holds value then n.jumpInWords terminal channels i s'
      else .ok (.ok (n, none), s')

def executeInWords (terminal : Terminal σ) (channels : Channels) (n : Node) (i : Instruction)
    (s : σ) : Except WordFault (Except RuntimeFault (Node × Option Nat) × σ) :=
  match i.opcode with
  | .mov => .ok (n.move terminal channels i s)
  | .inc => .ok (.ok (n.storeAcc (Word.saturated (n.acc + 1)), none), s)
  | .dec => .ok (.ok (n.storeAcc (Word.saturated (n.acc - 1)), none), s)
  | .neg => do
    let value ← Word.signed (-n.acc)
    return (.ok (n.storeAcc value, none), s)
  | .jmp => n.jumpInWords terminal channels i s
  | .jlz => n.branchInWords terminal channels .negative i s
  | .jez => n.branchInWords terminal channels .zero i s
  | .jgz => n.branchInWords terminal channels .positive i s
  | .jnz => n.branchInWords terminal channels .nonzero i s

def advanceInWords (n : Node) (distance : Nat) : Except WordFault Node := do
  let place ← Word.unsigned (n.pc + distance)
  return { n with pc := place % n.program.length }

/-- A step that computes with words, and goes no further where one does not hold what it should. -/
def stepInWords (terminal : Terminal σ) (channels : Channels) (n : Node) (s : σ) :
    Except WordFault (StepResult × Node × σ) :=
  if n.steppable then
    match n.program[n.pc]? with
    | none => .error .outside
    | some i => do
      match ← n.executeInWords terminal channels i s with
      | (.ok (m, none), s') => return (.continued, ← m.advanceInWords 1, s')
      | (.ok (m, some distance), s') => return (.jumped, ← m.advanceInWords distance, s')
      | (.error fault, s') => return (.failed fault, n.fail i.line fault, s')
  else .ok (.idle, n, s)

section Words

variable {t : Terminal σ} {ch : Channels} {n m : Node} {s : σ}

theorem Sound.size (h : n.Sound) (hn : n.error = none) : List.length n.program ≤ 15 :=
  (h.short (reset_error_of_none hn)).trans n.nodeClass.lines_le

theorem jumpInWords_eq (hp : n.program ≠ []) (hsize : List.length n.program ≤ 15)
    (i : Instruction) (s : σ) : n.jumpInWords t ch i s = .ok (n.jump t ch i s) := by
  have hpos : List.length n.program ≠ 0 := (List.length_pos_iff.mpr hp).ne'
  unfold jumpInWords jump
  cases i.target? with
  | none => rfl
  | some target =>
    simp only [jumpDistance]
    rcases n.readOperand t ch target s with ⟨fault | d, s'⟩
    · rfl
    · simp only [Word.index_wrapDistanceChecked hpos hsize]
      rfl

theorem branchInWords_eq (hp : n.program ≠ []) (hsize : List.length n.program ≤ 15)
    (c : Condition) (i : Instruction) (s : σ) :
    n.branchInWords t ch c i s = .ok (n.branch t ch c i s) := by
  unfold branchInWords branch
  cases i.operands.head? with
  | none => rfl
  | some tested =>
    simp only
    rcases n.readOperand t ch tested s with ⟨fault | value, s'⟩
    · rfl
    · simp only [jumpInWords_eq hp hsize]
      split_ifs <;> rfl

theorem executeInWords_eq (hp : n.program ≠ []) (hsize : List.length n.program ≤ 15)
    (hacc : clamp n.acc = n.acc) (i : Instruction) (s : σ) :
    n.executeInWords t ch i s = .ok (n.execute t ch i s) := by
  obtain ⟨hlow, hhigh⟩ := clamp_eq_self_iff.mp hacc
  have hmin : Int64.minValue.toInt = -2 ^ 63 := by decide
  have hmax : Int64.maxValue.toInt = 2 ^ 63 - 1 := by decide
  have hsaturated : ∀ v : Int, -491 ≤ v → v ≤ 491 → Word.saturated v = v := by
    intro v hv hv'
    simp only [Word.saturated, hmin, hmax]
    omega
  have hsigned : Word.signed (-n.acc) = .ok (-n.acc) := by
    refine if_pos ?_
    rw [hmin, hmax]
    omega
  unfold executeInWords execute
  cases i.opcode with
  | mov => rfl
  | inc => simp only [hsaturated (n.acc + 1) (by omega) (by omega)]
  | dec => simp only [hsaturated (n.acc - 1) (by omega) (by omega)]
  | neg =>
    simp only [hsigned]
    rfl
  | jmp => exact jumpInWords_eq hp hsize i s
  | jlz => exact branchInWords_eq hp hsize _ i s
  | jez => exact branchInWords_eq hp hsize _ i s
  | jgz => exact branchInWords_eq hp hsize _ i s
  | jnz => exact branchInWords_eq hp hsize _ i s

theorem advanceInWords_eq {distance : Nat} (h : n.pc + distance < UInt64.size) :
    n.advanceInWords distance = .ok (n.advance distance) := by
  rw [advanceInWords, Word.unsigned, if_pos h]
  rfl

theorem Sound.stepInWords_eq (h : n.Sound) (t : Terminal σ) (ch : Channels) (s : σ) :
    n.stepInWords t ch s = .ok (n.step t ch s) := by
  unfold stepInWords step
  split_ifs with hn
  · simp only [steppable, Bool.and_eq_true, Option.isNone_iff_eq_none, Bool.not_eq_true',
      List.isEmpty_eq_false_iff] at hn
    obtain ⟨hn, hp⟩ := hn
    have hsize := h.size hn
    have hpc : n.pc < List.length n.program := h.pc.resolve_right fun hnil => hp hnil.1
    rw [List.getElem?_eq_getElem hpc]
    simp only [executeInWords_eq hp hsize h.acc]
    generalize he : n.execute t ch _ s = e
    rcases e with ⟨fault | ⟨m, distance⟩, s'⟩
    · rfl
    · rcases execute_effect he with ⟨rfl, heffect⟩ | ⟨d, rfl, rfl⟩
      · have hsame : m.pc = n.pc := by rw [heffect.frame]
        have hword : m.pc + 1 < UInt64.size := by
          simp only [UInt64.size]
          omega
        simp only [bind, Except.bind, advanceInWords_eq hword]
        rfl
      · have hrange := Word.wrapDistance_lt (Nat.ne_zero_of_lt hpc) hsize d
        have hword : m.pc + (wrapDistance (List.length m.program) d).toInt.toNat < UInt64.size := by
          simp only [UInt64.size]
          omega
        simp only [bind, Except.bind, advanceInWords_eq hword]
        rfl
  · rfl

end Words

/-- A node keeps to the range of values, to its program and to its class, and holds nothing while
its program is wrong. The channels and their values could as well be kept apart, and words are
enough for a step, whatever is read on the way. -/
theorem bounds_kept {n : Node} (h : n.Reachable) :
    (-490 ≤ n.acc ∧ n.acc ≤ 490) ∧
    (n.pc < List.length n.program ∨ n.program = [] ∧ n.pc = 0) ∧
    n.active.Nodup ∧
    (∀ id, id ∈ n.active ↔ n.broadcastTable.contains id = true) ∧
    n.active.length ≤ n.nodeClass.channels ∧
    (∀ id v, n.broadcastTable.find? id = some v → v ≠ 0 ∧ -490 ≤ v ∧ v ≤ 490) ∧
    (∀ id v, (n.broadcast id v).map (fun m => (m.active, m.broadcastTable)) =
      broadcastApart n.nodeClass.channels n.active n.broadcastTable id v) ∧
    (∀ e, n.error = some (.static e) → n.acc = 0 ∧ n.pc = 0 ∧ n.broadcasts = []) ∧
    ∀ (σ : Type) (t : Terminal σ) (ch : Channels) (s : σ),
      n.stepInWords t ch s = .ok (n.step t ch s) := by
  have hn := h.sound
  have hdistinct := hn.tuned.distinct
  refine ⟨clamp_eq_self_iff.mp hn.acc, hn.pc, hdistinct, fun id => mem_active_iff hdistinct, hn.few,
    ?_, broadcast_apart hdistinct, hn.still, fun σ t ch s => hn.stepInWords_eq t ch s⟩
  intro id v hv
  rw [find?_broadcastTable hdistinct] at hv
  obtain ⟨hzero, hclamp⟩ := hn.tuned.value _ (Table.mem_of_findIn hv)
  exact ⟨hzero, clamp_eq_self_iff.mp hclamp⟩

def flood : Terminal Unit where
  read s := (Int64.minValue.toInt, s)
  write _ s := (.ok (), s)

def dry : Node :=
  Node.setProgram { nodeClass := .tiny, slot := 0 } "MOV CH5 INPUT\nMOV ACC INPUT\nJMP INPUT"

def flooded : Node := ((dry.step flood .empty ()).2.1.step flood .empty ()).2.1

theorem bounds_kept_flooded :
    flooded.Reachable ∧ flooded.acc = -490 ∧ flooded.pc = 2 ∧ flooded.broadcasts = [(5, -490)] ∧
      (-490 ≤ flooded.acc ∧ flooded.acc ≤ 490) ∧
      flooded.stepInWords flood .empty () = .ok (flooded.step flood .empty ()) ∧
      (flooded.step flood .empty ()).1 = .jumped := by
  have hdry : dry.Reachable := .setProgram (.new .tiny 0 false) _
  have hreach : flooded.Reachable :=
    .run hdry (.step (.step .refl flood .empty ()) flood .empty ())
  have hstate : flooded.acc = -490 ∧ flooded.pc = 2 ∧ flooded.broadcasts = [(5, -490)] ∧
      (flooded.step flood .empty ()).1 = .jumped := by
    decide +kernel
  obtain ⟨hacc, hpc, hactive, hjumped⟩ := hstate
  obtain ⟨hrange, -, -, -, -, -, -, -, hwords⟩ := bounds_kept hreach
  exact ⟨hreach, hacc, hpc, hactive, hrange, hwords Unit flood .empty (), hjumped⟩

end Node
end Lockstep
