import Lockstep.Proofs.Acceptance
import Mathlib.Algebra.Group.Nat.Defs

/-!
What resolving leaves. It looks at the last operand of each jump and at nothing else. A label that
is known becomes a distance and a distance is taken around the program, both without a change of
where the jump leads, and a label that is not known stays and is reported. Nothing in the result is
left to be done, so that resolving it again gives the same.
-/
namespace Lockstep

theorem wrapDistance_wrapDistance {length : Nat} (hlen : 2 * length ≤ UInt32.size) (d : Int) :
    wrapDistance length (wrapDistance length d).toInt = wrapDistance length d := by
  by_cases hpos : length = 0
  · rw [wrapDistance, wrapDistance, if_pos hpos, if_pos hpos]
  · have hword : 2 * length < UInt64.size := Nat.lt_of_le_of_lt hlen (by decide)
    exact wrapDistance_inside hword (wrapDistance_range hpos hlen d)

-- around one instruction more, the way back by one is no longer a word of 32 bits
example : (wrapDistance (2 ^ 31 + 1) (-1)).toInt = -2 ^ 31 := by decide

theorem add_wrapDistance_emod {length : Nat} (hpos : length ≠ 0) (hlen : 2 * length ≤ UInt32.size)
    (start x : Int) : (start + (wrapDistance length x).toInt) % length = (start + x) % length := by
  rw [wrapDistance_toInt hpos hlen, Int.add_emod_emod]

/-! One target. -/

namespace Operand
variable {labels : Table String Nat} {length index : Nat}

def resolved (labels : Table String Nat) (length index : Nat) (op : Operand) : Operand :=
  (op.resolve labels length index).toOption.getD op

theorem resolved_found {name : String} {place : Nat} (h : labels.find? name = some place) :
    (label name).resolved labels length index = .offset (wrapDistance length (place - index)) := by
  simp only [resolved, resolve, h]
  rfl

theorem resolved_missing {name : String} (h : labels.find? name = none) :
    (label name).resolved labels length index = .label name := by
  simp only [resolved, resolve, h]
  rfl

theorem resolved_offset (d : Int32) :
    (offset d).resolved labels length index = .offset (wrapDistance length d.toInt) := rfl

theorem resolved_inside (hpos : length ≠ 0) (hlen : 2 * length ≤ UInt32.size) {op : Operand}
    {d : Int32} (h : op.resolved labels length index = .offset d) :
    0 ≤ d.toInt ∧ d.toInt < length := by
  cases op with
  | label name =>
    cases hfind : labels.find? name with
    | none =>
      rw [resolved_missing hfind] at h
      cases h
    | some place =>
      rw [resolved_found hfind] at h
      cases h
      exact wrapDistance_range hpos hlen _
  | offset distance =>
    cases h
    exact wrapDistance_range hpos hlen _
  | _ => cases h

theorem resolved_eq_label_iff {op : Operand} {name : String} :
    op.resolved labels length index = .label name ↔
      op = .label name ∧ labels.find? name = none := by
  cases op with
  | label other =>
    cases hfind : labels.find? other with
    | none =>
      rw [resolved_missing hfind]
      refine ⟨fun h => ?_, And.left⟩
      cases h
      exact ⟨rfl, hfind⟩
    | some place =>
      rw [resolved_found hfind]
      refine ⟨fun h => ?_, fun ⟨h, hnone⟩ => ?_⟩
      · cases h
      · cases h
        cases hfind.symm.trans hnone
  | _ => simp [resolved, resolve, Except.toOption]

theorem map_resolved_eq_label_iff {target : Option Operand} {name : String} :
    target.map (resolved labels length index) = some (.label name) ↔
      target = some (.label name) ∧ labels.find? name = none := by
  cases target with
  | none => simp
  | some op => rw [Option.map_some, Option.some_inj, resolved_eq_label_iff, Option.some_inj]

theorem resolved_resolved (hlen : 2 * length ≤ UInt32.size) (op : Operand) :
    (op.resolved labels length index).resolved labels length index =
      op.resolved labels length index := by
  cases op with
  | label name =>
    cases hfind : labels.find? name with
    | none => rw [resolved_missing hfind, resolved_missing hfind]
    | some place => rw [resolved_found hfind, resolved_offset, wrapDistance_wrapDistance hlen]
  | offset d => rw [resolved_offset, resolved_offset, wrapDistance_wrapDistance hlen]
  | _ => rfl

/-- The index that a jump by the operand is to reach, where that is known before it is made. -/
def destination? (labels : Table String Nat) (length index : Nat) : Operand → Option Int
  | .label name => (labels.find? name).map Int.ofNat
  | .offset d => some ((index + d.toInt) % length)
  | _ => none

theorem destination?_resolved (hpos : length ≠ 0) (hlen : 2 * length ≤ UInt32.size)
    (hplaces : ∀ name place, labels.find? name = some place → place < length) (op : Operand) :
    (op.resolved labels length index).destination? labels length index =
      op.destination? labels length index := by
  cases op with
  | label name =>
    cases hfind : labels.find? name with
    | none => rw [resolved_missing hfind]
    | some place =>
      -- the place is an index, which no remainder changes
      have hlt : (place : Int) < length := Int.ofNat_lt.mpr (hplaces name place hfind)
      have hback : (index : Int) + (place - index) = place := by omega
      rw [resolved_found hfind, destination?, destination?, hfind, add_wrapDistance_emod hpos hlen,
        hback, Int.emod_eq_of_lt (Int.natCast_nonneg _) hlt]
      rfl
  | offset d =>
    rw [resolved_offset, destination?, destination?, add_wrapDistance_emod hpos hlen]
  | _ => rfl

end Operand

/-! One instruction. -/

namespace Instruction
variable {labels : Table String Nat} {length index : Nat} {i : Instruction}

theorem target?_withTarget {target : Operand} (h : i.target? = some target) (resolved : Operand) :
    (i.withTarget resolved).target? = some resolved := by
  obtain ⟨hjump, first, hops⟩ := target?_eq_some h
  have hlast : (i.withTarget resolved).operands = first ++ [resolved] := by
    rw [withTarget, hops, List.dropLast_concat]
  exact target?_concat hlast hjump

theorem Aims.line_eq {i j : Instruction} (h : i.Aims j) : j.line = i.line := by
  cases h <;> rfl

theorem resolve_target {target : Operand} (h : i.target? = some target) :
    (i.resolve labels length index).1 = i.withTarget (target.resolved labels length index) := by
  simp only [resolve, h, Operand.resolved]
  cases target.resolve labels length index with
  | ok resolved => rfl
  | error fault => exact (withTarget_target h).symm

theorem resolve_none (h : i.target? = none) : (i.resolve labels length index).1 = i := by
  simp only [resolve, h]

theorem target?_resolve_eq (labels : Table String Nat) (length index : Nat) (i : Instruction) :
    (i.resolve labels length index).1.target? =
      i.target?.map (Operand.resolved labels length index) := by
  cases htarget : i.target? with
  | none => rw [resolve_none htarget, htarget, Option.map_none]
  | some target => rw [resolve_target htarget, target?_withTarget htarget, Option.map_some]

theorem resolve_resolve (hlen : 2 * length ≤ UInt32.size) (labels : Table String Nat)
    (index : Nat) (i : Instruction) :
    (i.resolve labels length index).1.resolve labels length index =
      i.resolve labels length index := by
  refine Prod.ext ?_ (Option.ext fun e => ?_)
  · cases htarget : i.target? with
    | none => rw [resolve_none htarget, resolve_none htarget]
    | some target =>
      have hagain := target?_resolve_eq labels length index i
      rw [htarget, Option.map_some] at hagain
      rw [resolve_target hagain, Operand.resolved_resolved hlen, withTarget_target hagain]
  · -- a label that stays is still nowhere, and one that went had no error
    have hline := (i.aims_resolve labels length index).line_eq
    simp only [resolve_error_iff, target?_resolve_eq, Operand.map_resolved_eq_label_iff, hline,
      and_assoc, and_self_left]

end Instruction

/-! The whole program. -/

namespace Program
variable {p : Program} {labelLines : Table String Nat}

/-- The first instruction on the line or below it, and the first of all where there is none. -/
inductive FirstFrom (p : Program) (line : Nat) : Nat → Prop
  | found {k : Nat} {i : Instruction} (hk : p[k]? = some i) (hline : line ≤ i.line)
      (habove : ∀ j < k, ∀ above, p[j]? = some above → above.line < line) : FirstFrom p line k
  | none (h : ∀ i ∈ p, i.line < line) : FirstFrom p line 0

theorem firstFrom_indexFrom (p : Program) (line : Nat) : p.FirstFrom line (p.indexFrom line) := by
  unfold indexFrom
  cases hfound : p.findIdx? fun i => decide (line ≤ i.line) with
  | none =>
    refine .none fun i hi => ?_
    have hline := List.findIdx?_eq_none_iff.mp hfound i hi
    exact Nat.lt_of_not_le (of_decide_eq_false hline)
  | some k =>
    obtain ⟨hk, hline, habove⟩ := List.findIdx?_eq_some_iff_getElem.mp hfound
    refine .found (List.getElem?_eq_getElem hk) (of_decide_eq_true hline) ?_
    intro j hj above hget
    obtain ⟨hlt, rfl⟩ := List.getElem?_eq_some_iff.mp hget
    exact Nat.lt_of_not_le fun hle => habove j hj (decide_eq_true hle)

theorem FirstFrom.lt {p : Program} {line k : Nat} (h : p.FirstFrom line k) (hp : p ≠ []) :
    k < List.length p := by
  cases h with
  | found hk => exact (List.getElem?_eq_some_iff.mp hk).1
  | none => exact List.length_pos_iff.mpr hp

theorem indexFrom_congr {p q : Program} (h : p.map Instruction.line = q.map Instruction.line)
    (line : Nat) : p.indexFrom line = q.indexFrom line := by
  have hlines : ∀ r : Program, r.indexFrom line =
      ((r.map Instruction.line).findIdx? fun l => decide (line ≤ l)).getD 0 := by
    intro r
    rw [List.findIdx?_map]
    rfl
  rw [hlines, hlines, h]

theorem getElem?_resolve (p : Program) (labelLines : Table String Nat) (k : Nat) :
    (p.resolve labelLines).program[k]? =
      p[k]?.map fun i => (i.resolve (p.labelIndices labelLines) p.length k).1 := by
  simp [resolve, Function.comp_def]

theorem map_line_resolve (p : Program) (labelLines : Table String Nat) :
    (p.resolve labelLines).program.map Instruction.line = p.map Instruction.line := by
  apply List.ext_getElem?
  intro k
  rw [List.getElem?_map, List.getElem?_map, getElem?_resolve, Option.map_map]
  exact Option.map_congr fun i _ => (i.aims_resolve _ _ _).line_eq

def targetAt? (p : Program) (k : Nat) : Option Operand := p[k]?.bind Instruction.target?

theorem targetAt?_resolve (p : Program) (labelLines : Table String Nat) (k : Nat) :
    (p.resolve labelLines).program.targetAt? k =
      (p.targetAt? k).map (Operand.resolved (p.labelIndices labelLines) p.length k) := by
  rw [targetAt?, getElem?_resolve, Option.bind_map, targetAt?, Option.map_bind]
  congr 1
  funext i
  exact i.target?_resolve_eq _ _ k

theorem ne_nil_of_targetAt? {k : Nat} {target : Operand} (h : p.targetAt? k = some target) :
    p ≠ [] := by
  rintro rfl
  cases h

theorem find?_labelIndices_eq_none_iff {name : String} :
    (p.labelIndices labelLines).find? name = none ↔ ¬ labelLines.contains name := by
  simp [labelIndices, Table.find?_map, Table.contains]

theorem find?_labelIndices_lt (hp : p ≠ []) {name : String} {place : Nat}
    (h : (p.labelIndices labelLines).find? name = some place) : place < List.length p := by
  rw [labelIndices, Table.find?_map] at h
  obtain ⟨line, -, rfl⟩ := Option.map_eq_some_iff.mp h
  exact (p.firstFrom_indexFrom line).lt hp

theorem resolve_resolve (hlen : 2 * List.length p ≤ UInt32.size) (labelLines : Table String Nat) :
    (p.resolve labelLines).program.resolve labelLines = p.resolve labelLines := by
  -- the lines stay, and the table depends on nothing else
  have hlines := p.map_line_resolve labelLines
  have hlabels : (p.resolve labelLines).program.labelIndices labelLines =
      p.labelIndices labelLines := congrArg labelLines.map (funext (indexFrom_congr hlines))
  have hlength : (p.resolve labelLines).program.length = p.length := by
    simpa only [List.length_map] using congrArg List.length hlines
  have hpairs : (p.resolve labelLines).program.zipIdx.map
        (fun e => e.1.resolve (p.labelIndices labelLines) p.length e.2) =
      p.zipIdx.map fun e => e.1.resolve (p.labelIndices labelLines) p.length e.2 := by
    apply List.ext_getElem?
    intro k
    simp only [List.getElem?_map, List.getElem?_zipIdx, getElem?_resolve, Option.map_map,
      Function.comp_def, Nat.zero_add, Instruction.resolve_resolve hlen]
  generalize (p.resolve labelLines).program = q at *
  simp only [resolve, hlabels, hlength, hpairs]

end Program

/-- What a resolution says of a program and of the lines of its labels. -/
structure Resolution.Final (r : Resolution) (p : Program) (labelLines : Table String Nat) :
    Prop where
  labels : List.Forall₂ (fun l e => e.1 = l.1 ∧ p.FirstFrom l.2 e.2) labelLines.entries
    r.labels.entries
  kept : List.Forall₂ Instruction.Aims p r.program
  inside : ∀ k d, r.program.targetAt? k = some (.offset d) → 0 ≤ d.toInt ∧ d.toInt < p.length
  leads : ∀ k, (r.program.targetAt? k).bind (Operand.destination? r.labels p.length k) =
    (p.targetAt? k).bind (Operand.destination? r.labels p.length k)
  unresolved : ∀ k name, r.program.targetAt? k = some (.label name) ↔
    p.targetAt? k = some (.label name) ∧ ¬ labelLines.contains name
  errors : r.errors = p.filterMap (Instruction.unknown? labelLines)
  again : r.program.resolve labelLines = r

namespace Program

/-- Resolving a program that is no longer than the distances reach touches the targets of jumps only
and is done after one pass: every target by distance is inside the program and leads where it led,
every label that is left is one without a line and has its error, in order and with the line of its
jump, and a second pass gives the same program, the same table and the same errors. -/
theorem resolution_final (p : Program) (labelLines : Table String Nat)
    (hlen : p.length ≤ 2 ^ 31) : (p.resolve labelLines).Final p labelLines := by
  have hword : 2 * List.length p ≤ UInt32.size := by
    simp only [UInt32.size]
    omega
  refine ⟨?_, p.aims_resolve labelLines, ?_, ?_, ?_, p.errors_resolve labelLines,
    resolve_resolve hword labelLines⟩
  · refine List.forall₂_map_right_iff.mpr (List.forall₂_same.mpr fun l _ => ?_)
    exact ⟨rfl, p.firstFrom_indexFrom l.2⟩
  · intro k d h
    rw [targetAt?_resolve] at h
    obtain ⟨target, htarget, hresolved⟩ := Option.map_eq_some_iff.mp h
    have hp := ne_nil_of_targetAt? htarget
    exact Operand.resolved_inside (Nat.ne_of_gt (List.length_pos_iff.mpr hp)) hword hresolved
  · intro k
    rw [targetAt?_resolve]
    cases htarget : p.targetAt? k with
    | none => rfl
    | some target =>
      have hp := ne_nil_of_targetAt? htarget
      exact Operand.destination?_resolved (Nat.ne_of_gt (List.length_pos_iff.mpr hp)) hword
        (fun _ _ => find?_labelIndices_lt hp) target
  · intro k name
    rw [targetAt?_resolve, Operand.map_resolved_eq_label_iff, find?_labelIndices_eq_none_iff]

def jumble : Program :=
  [⟨.jmp, [.label "low"], 1⟩, ⟨.jez, [.label "low", .offset (-1)], 2⟩,
    ⟨.mov, [.offset 7, .label "low"], 5⟩, ⟨.jmp, [], 0⟩, ⟨.jnz, [.channel 1, .label "lost"], 4⟩,
    ⟨.jgz, [.label "end", .register .acc], 2⟩, ⟨.jlz, [.label "end"], 3⟩]

def jumbleLines : Table String Nat := .ofList [("low", 3), ("end", 12)]

theorem resolution_final_jumble :
    jumble.length ≤ 2 ^ 31 ∧ (jumble.resolve jumbleLines).Final jumble jumbleLines ∧
      (jumble.resolve jumbleLines).errors = [⟨4, .unknownLabel "lost"⟩] ∧
      (jumble.resolve jumbleLines).program =
        [⟨.jmp, [.offset 2], 1⟩, ⟨.jez, [.label "low", .offset 6], 2⟩,
          ⟨.mov, [.offset 7, .label "low"], 5⟩, ⟨.jmp, [], 0⟩,
          ⟨.jnz, [.channel 1, .label "lost"], 4⟩, ⟨.jgz, [.label "end", .register .acc], 2⟩,
          ⟨.jlz, [.offset 1], 3⟩] := by
  have hlen : jumble.length ≤ 2 ^ 31 := by decide
  exact ⟨hlen, resolution_final jumble jumbleLines hlen, by decide +kernel, by decide +kernel⟩

end Program
end Lockstep
