import Lockstep.Proofs.Assembling
import Lockstep.Proofs.Tables
import Mathlib.Data.List.Forall2

/-!
What assembling says of a text. `FaultAt` lists what can be wrong on a line: its label stands
further up, it holds no instruction, or it jumps to a label that is nowhere. A text that has room
and no fault assembles, and of several faults the error is the one on the smallest line, with a
label defined twice before the others of its line. The instructions that can be read are kept, in
the order of their lines, whatever else is wrong.
-/
namespace Lockstep
open SourceLine (Labelled Vacant Holds Faulty)

namespace AssemblyError

theorem earliest?_split {es : List AssemblyError} {e : AssemblyError} (h : earliest? es = some e) :
    ∃ before after, es = before ++ e :: after ∧ (∀ a ∈ before, e.line < a.line) ∧
      ∀ a ∈ after, e.line ≤ a.line := by
  induction es using List.reverseRecOn generalizing e with
  | nil => cases h
  | append_singleton es a ih =>
    rw [earliest?, List.foldl_append, ← earliest?, List.foldl_cons, List.foldl_nil] at h
    cases hfound : earliest? es with
    | none =>
      rw [hfound] at h
      cases h
      rw [earliest?_eq_none hfound]
      exact ⟨[], [], rfl, by simp, by simp⟩
    | some first =>
      obtain ⟨before, after, rfl, hbefore, hafter⟩ := ih hfound
      rw [hfound, earlier] at h
      split_ifs at h with hle
      · cases h
        refine ⟨before, after ++ [a], by simp, hbefore, ?_⟩
        intro b hb
        rcases List.mem_append.mp hb with hb | hb
        · exact hafter b hb
        · rw [List.mem_singleton.mp hb]
          exact hle
      · cases h
        refine ⟨before ++ first :: after, [], rfl, ?_, by simp⟩
        intro b hb
        rcases List.mem_append.mp hb with hb | hb
        · have := hbefore b hb
          omega
        · rcases List.mem_cons.mp hb with rfl | hb
          · omega
          · have := hafter b hb
            omega

/-- An error on a label defined twice does not come after another error of its line. -/
def Ranked (a b : AssemblyError) : Prop :=
  a.line = b.line → ∀ name, b.fault ≠ .duplicateLabel name

end AssemblyError

namespace Assembly

/-! The instructions that are kept. -/

theorem instructions_ordered (raw : List (List Char)) :
    (instructions (readLines raw)).Pairwise fun i j => i.line < j.line := by
  rw [instructions, List.pairwise_filterMap, readLines, List.pairwise_map,
    List.pairwise_iff_getElem]
  intro a b ha hb hlt i hi j hj
  have hiline := (SourceLine.body_read_some_iff.mp (kept_eq_some_iff.mp hi)).line_eq
  have hjline := (SourceLine.body_read_some_iff.mp (kept_eq_some_iff.mp hj)).line_eq
  rw [hiline, hjline, List.getElem_zipIdx, List.getElem_zipIdx]
  omega

/-! Labels. -/

theorem find?_labelLines {found : Table String Nat} (hfound : found.Sorted) (n : Nat)
    (ls : List SourceLine) (name : String) :
    (labelLines n ls found).find? name =
      (found.find? name).or ((ls.findIdx? fun l => l.label = some name).map (n + ·)) := by
  induction ls generalizing n found with
  | nil => simp [labelLines]
  | cons l ls ih =>
    have hshift : ∀ o : Option Nat, (o.map (· + 1)).map (n + ·) = o.map (n + 1 + ·) := by
      intro o
      cases o <;> simp [Nat.add_comm, Nat.add_left_comm]
    rw [labelLines, List.findIdx?_cons]
    cases hl : l.label with
    | none =>
      rw [ih hfound]
      simp [hshift]
    | some other =>
      simp only [ih (hfound.insertNew other n), Table.find?_insertNew hfound, Option.some.injEq,
        decide_eq_true_eq]
      by_cases hname : name = other
      · rw [if_pos hname, if_pos hname.symm, hname]
        cases found.find? other <;> simp
      · rw [if_neg hname, if_neg (Ne.symm hname), hshift]

def Defines (raw : List (List Char)) (name : String) (line : Nat) : Prop :=
  ∃ text, raw[line]? = some text ∧ Labelled text name

def DefinesFirst (raw : List (List Char)) (name : String) (line : Nat) : Prop :=
  Defines raw name line ∧ ∀ above < line, ¬Defines raw name above

theorem find?_labelLines_iff {raw : List (List Char)} {name : String} {line : Nat} :
    (labelLines 0 (readLines raw) .empty).find? name = some line ↔ DefinesFirst raw name line := by
  have hsorted : (Table.empty : Table String Nat).Sorted := .nil
  have hempty : (Table.empty : Table String Nat).find? name = none := rfl
  have hdefines : ∀ k (hk : k < (readLines raw).length),
      (readLines raw)[k].label = some name ↔ Defines raw name k := by
    intro k hk
    have hread := getElem?_readLines raw k
    rw [List.getElem?_eq_getElem hk] at hread
    obtain ⟨text, htext, hline⟩ := Option.map_eq_some_iff.mp hread.symm
    rw [← hline, SourceLine.label_read_iff]
    constructor
    · exact fun h => ⟨text, htext, h⟩
    · rintro ⟨other, hother, h⟩
      cases htext.symm.trans hother
      exact h
  have hlength : (readLines raw).length = raw.length := by
    simp only [readLines, List.length_map, List.length_zipIdx]
  rw [find?_labelLines hsorted, hempty, Option.none_or]
  simp only [Nat.zero_add, Option.map_id', List.findIdx?_eq_some_iff_getElem, decide_eq_true_eq]
  constructor
  · rintro ⟨hline, hlabel, habove⟩
    refine ⟨(hdefines line hline).mp hlabel, fun above hlt hdefined => ?_⟩
    exact habove above hlt ((hdefines above _).mpr hdefined)
  · rintro ⟨hdefined, habove⟩
    obtain ⟨text, htext, hname⟩ := hdefined
    have hline : line < (readLines raw).length :=
      hlength ▸ (List.getElem?_eq_some_iff.mp htext).1
    refine ⟨hline, (hdefines line hline).mpr ⟨text, htext, hname⟩, fun above hlt hlabel => ?_⟩
    exact habove above hlt ((hdefines above _).mp hlabel)

theorem label_unknown_iff {raw : List (List Char)} {name : String} :
    (labelLines 0 (readLines raw) .empty).find? name = none ↔
      ∀ text ∈ raw, ¬Labelled text name := by
  have hsorted : (Table.empty : Table String Nat).Sorted := .nil
  have hempty : (Table.empty : Table String Nat).find? name = none := rfl
  rw [find?_labelLines hsorted, hempty, Option.none_or, Option.map_eq_none_iff,
    List.findIdx?_eq_none_iff]
  simp only [decide_eq_false_iff_not]
  constructor
  · intro h text htext hname
    obtain ⟨k, hk⟩ := List.mem_iff_getElem?.mp htext
    exact h _ (mem_readLines_iff.mpr ⟨k, text, hk, rfl⟩) (SourceLine.label_read_iff.mpr hname)
  · intro h l hl hname
    obtain ⟨k, text, htext, rfl⟩ := mem_readLines_iff.mp hl
    exact h text (List.mem_of_getElem? htext) (SourceLine.label_read_iff.mp hname)

/-! The errors that are found, in the order they are found. -/

theorem mem_lineErrors_iff {n : Nat} {l : SourceLine} {known : List String} {e : AssemblyError} :
    e ∈ lineErrors n l known ↔ e.line = n ∧
      ((∃ name ∈ known, l.label = some name ∧ e.fault = .duplicateLabel name) ∨
        l.body = .error e.fault) := by
  obtain ⟨line, fault⟩ := e
  rw [lineErrors, List.mem_append, and_or_left]
  apply or_congr
  · cases l.label with
    | none => simp
    | some name =>
      by_cases hname : name ∈ known
      · simp [hname]
      · simp only [hname, if_false, List.not_mem_nil, false_iff, not_and]
        rintro - ⟨other, hother, heq, -⟩
        exact hname (Option.some.inj heq ▸ hother)
  · cases l.body with
    | ok i => simp
    | error other => simp [eq_comm]

theorem mem_errorsFrom_iff {n : Nat} {ls : List SourceLine} {known : List String}
    {e : AssemblyError} :
    e ∈ errorsFrom n ls known ↔ ∃ k l, ls[k]? = some l ∧ e.line = n + k ∧
      ((∃ name, l.label = some name ∧ e.fault = .duplicateLabel name ∧
          (name ∈ known ∨ ∃ j < k, ∃ above, ls[j]? = some above ∧ above.label = some name)) ∨
        l.body = .error e.fault) := by
  induction ls generalizing n known with
  | nil => simp [errorsFrom]
  | cons l ls ih =>
    rw [errorsFrom, List.mem_append, mem_lineErrors_iff, ih]
    constructor
    · rintro (⟨hline, hwhat⟩ | ⟨k, below, hbelow, hline, hwhat⟩)
      · refine ⟨0, l, rfl, hline, hwhat.imp_left ?_⟩
        rintro ⟨name, hknown, hname, hfault⟩
        exact ⟨name, hname, hfault, .inl hknown⟩
      · refine ⟨k + 1, below, hbelow, by omega, hwhat.imp_left ?_⟩
        rintro ⟨name, hname, hfault, hdefined⟩
        refine ⟨name, hname, hfault, ?_⟩
        rcases hdefined with hknown | ⟨j, hj, above, habove, hsame⟩
        · rcases List.mem_append.mp hknown with hhere | hknown
          · exact .inr ⟨0, Nat.zero_lt_succ k, l, rfl, Option.mem_toList.mp hhere⟩
          · exact .inl hknown
        · exact .inr ⟨j + 1, Nat.succ_lt_succ hj, above, habove, hsame⟩
    · rintro ⟨k, below, hbelow, hline, hwhat⟩
      cases k with
      | zero =>
        cases hbelow
        refine .inl ⟨hline, hwhat.imp_left ?_⟩
        rintro ⟨name, hname, hfault, hknown | ⟨j, hj, -⟩⟩
        · exact ⟨name, hknown, hname, hfault⟩
        · exact absurd hj (Nat.not_lt_zero j)
      | succ k =>
        refine .inr ⟨k, below, hbelow, by omega, hwhat.imp_left ?_⟩
        rintro ⟨name, hname, hfault, hdefined⟩
        refine ⟨name, hname, hfault, ?_⟩
        rcases hdefined with hknown | ⟨j, hj, above, habove, hsame⟩
        · exact .inl (List.mem_append_right _ hknown)
        · cases j with
          | zero =>
            cases habove
            exact .inl (List.mem_append_left _ (Option.mem_toList.mpr hsame))
          | succ j => exact .inr ⟨j, Nat.lt_of_succ_lt_succ hj, above, habove, hsame⟩

theorem errorsFrom_ranked {ls : List SourceLine}
    (h : ∀ l ∈ ls, ∀ name, l.body ≠ .error (.duplicateLabel name)) (n : Nat)
    (known : List String) : (errorsFrom n ls known).Pairwise AssemblyError.Ranked := by
  induction ls generalizing n known with
  | nil => exact .nil
  | cons l ls ih =>
    rw [errorsFrom, List.pairwise_append]
    refine ⟨?_, ih (fun below hb => h below (.tail _ hb)) _ _, ?_⟩
    · rw [lineErrors, List.pairwise_append]
      refine ⟨?_, ?_, ?_⟩
      · split
        · split_ifs <;> simp
        · simp
      · split <;> simp
      · intro a _ b hb _ name hname
        cases hbody : l.body with
        | ok i => simp [hbody] at hb
        | error fault =>
          rw [hbody, List.mem_singleton] at hb
          rw [hb] at hname
          exact h l (.head _) name (hname ▸ hbody)
    · intro a ha b hb hline
      have hn := (mem_lineErrors_iff.mp ha).1
      obtain ⟨k, -, -, hk, -⟩ := mem_errorsFrom_iff.mp hb
      omega

end Assembly

theorem Instruction.resolve_error_iff {labels : Table String Nat} {length index : Nat}
    {i : Instruction} {e : AssemblyError} :
    (i.resolve labels length index).2 = some e ↔
      ∃ name, i.target? = some (.label name) ∧ labels.find? name = none ∧
        e = ⟨i.line, .unknownLabel name⟩ := by
  unfold Instruction.resolve
  cases i.target? with
  | none => simp
  | some target =>
    cases target with
    | label name =>
      cases hname : labels.find? name with
      | none => simp [Operand.resolve, hname, eq_comm]
      | some place =>
        simp only [Operand.resolve, hname, reduceCtorEq, false_iff]
        rintro ⟨other, heq, hother, -⟩
        cases heq
        cases hname.symm.trans hother
    | _ => simp [Operand.resolve]

def Instruction.unknown? (labelLines : Table String Nat) (i : Instruction) : Option AssemblyError :=
  match i.target? with
  | some (.label name) =>
    if labelLines.contains name then none else some ⟨i.line, .unknownLabel name⟩
  | _ => none

theorem Instruction.unknown?_eq_some_iff {labelLines : Table String Nat} {i : Instruction}
    {e : AssemblyError} :
    i.unknown? labelLines = some e ↔
      ∃ name, i.target? = some (.label name) ∧ labelLines.find? name = none ∧
        e = ⟨i.line, .unknownLabel name⟩ := by
  unfold Instruction.unknown? Table.contains
  split
  · rename_i name htarget
    cases hfind : labelLines.find? name <;> simp [htarget, hfind, eq_comm]
  · rename_i hother
    simp only [reduceCtorEq, false_iff]
    rintro ⟨name, htarget, -⟩
    exact hother name htarget

theorem Program.errors_resolve (p : Program) (labelLines : Table String Nat) :
    (p.resolve labelLines).errors = p.filterMap (Instruction.unknown? labelLines) := by
  have hone : ∀ e : Instruction × Nat,
      (e.1.resolve (p.labelIndices labelLines) p.length e.2).2 = e.1.unknown? labelLines := by
    intro e
    ext error
    rw [Instruction.resolve_error_iff, Instruction.unknown?_eq_some_iff]
    simp only [Program.labelIndices, Table.find?_map, Option.map_eq_none_iff]
  have hp : p.zipIdx.map Prod.fst = p := List.zipIdx_map_fst 0 p
  nth_rewrite 2 [← hp]
  simp only [Program.resolve, List.filterMap_map, Function.comp_def, hone]

theorem Program.mem_resolve_errors_iff {p : Program} {labelLines : Table String Nat}
    {e : AssemblyError} :
    e ∈ (p.resolve labelLines).errors ↔
      ∃ i ∈ p, ∃ name, i.target? = some (.label name) ∧ labelLines.find? name = none ∧
        e = ⟨i.line, .unknownLabel name⟩ := by
  simp only [Program.errors_resolve, List.mem_filterMap, Instruction.unknown?_eq_some_iff]

namespace Assembly

inductive FaultAt (raw : List (List Char)) (k : Nat) : AssemblyFault → Prop
  | duplicate {text above : List Char} {name : String} {j : Nat} (hk : raw[k]? = some text)
      (hname : Labelled text name) (hj : j < k) (ha : raw[j]? = some above)
      (habove : Labelled above name) : FaultAt raw k (.duplicateLabel name)
  | instruction {text : List Char} {fault : AssemblyFault} (hk : raw[k]? = some text)
      (hf : Faulty text fault) : FaultAt raw k fault
  | unknown {text : List Char} {i : Instruction} {name : String} (hk : raw[k]? = some text)
      (hi : Holds k text i) (ht : i.target? = some (.label name))
      (hname : ∀ other ∈ raw, ¬Labelled other name) : FaultAt raw k (.unknownLabel name)

def errors (raw : List (List Char)) : List AssemblyError :=
  errorsFrom 0 (readLines raw) [] ++
    ((instructions (readLines raw)).resolve (labelLines 0 (readLines raw) .empty)).errors

theorem mem_errors_iff {raw : List (List Char)} {e : AssemblyError} :
    e ∈ errors raw ↔ FaultAt raw e.line e.fault := by
  obtain ⟨line, fault⟩ := e
  rw [errors, List.mem_append, mem_errorsFrom_iff, Program.mem_resolve_errors_iff]
  simp only [getElem?_readLines, Option.map_eq_some_iff, Nat.zero_add, List.not_mem_nil, false_or]
  constructor
  · rintro (⟨k, _, ⟨text, hk, rfl⟩, rfl, hwhat⟩ | ⟨i, hi, name, ht, hname, he⟩)
    · rcases hwhat with ⟨name, hname, rfl, j, hj, _, ⟨above, ha, rfl⟩, hsame⟩ | hbody
      · exact .duplicate hk (SourceLine.label_read_iff.mp hname) hj ha
          (SourceLine.label_read_iff.mp hsame)
      · exact .instruction hk (SourceLine.body_read_error_iff.mp hbody)
    · cases he
      obtain ⟨text, hk, hholds⟩ := mem_instructions_iff.mp hi
      exact .unknown hk hholds ht (label_unknown_iff.mp hname)
  · intro h
    cases h with
    | duplicate hk hname hj ha habove =>
      refine .inl ⟨line, _, ⟨_, hk, rfl⟩, rfl, .inl ?_⟩
      refine ⟨_, SourceLine.label_read_iff.mpr hname, rfl, ?_⟩
      exact ⟨_, hj, _, ⟨_, ha, rfl⟩, SourceLine.label_read_iff.mpr habove⟩
    | instruction hk hf =>
      exact .inl ⟨line, _, ⟨_, hk, rfl⟩, rfl, .inr (SourceLine.body_read_error_iff.mpr hf)⟩
    | @unknown text i name hk hi ht hname =>
      have hline := hi.line_eq
      refine .inr ⟨i, ?_, name, ht, label_unknown_iff.mpr hname, by rw [hline]⟩
      rw [mem_instructions_iff, hline]
      exact ⟨text, hk, hi⟩

theorem firstMisspelt_ne_duplicate {position : Nat} {kinds : List OperandKind}
    {ws : List (List Char)} {fault : AssemblyFault}
    (h : SourceLine.FirstMisspelt position kinds ws fault) (name : String) :
    fault ≠ .duplicateLabel name := by
  induction h with
  | here h => cases h <;> simp
  | later h hrest ih => exact ih

theorem faulty_ne_duplicate {text : List Char} {fault : AssemblyFault} (h : Faulty text fault)
    (name : String) : fault ≠ .duplicateLabel name := by
  obtain ⟨label, rest, -, -, hmisreads⟩ := h
  cases hmisreads with
  | operand h hlen hf => exact firstMisspelt_ne_duplicate hf name
  | _ => simp

theorem errors_ranked (raw : List (List Char)) : (errors raw).Pairwise AssemblyError.Ranked := by
  have hunknown : ∀ (p : Program) labels, ∀ b ∈ (p.resolve labels).errors,
      ∀ a, AssemblyError.Ranked a b := by
    intro p labels b hb a _ name
    obtain ⟨i, -, other, -, -, rfl⟩ := Program.mem_resolve_errors_iff.mp hb
    simp
  rw [errors, List.pairwise_append]
  refine ⟨errorsFrom_ranked ?_ _ _, List.pairwise_of_forall_mem_list ?_, ?_⟩
  · intro l hl name hbody
    obtain ⟨k, text, -, rfl⟩ := mem_readLines_iff.mp hl
    exact faulty_ne_duplicate (SourceLine.body_read_error_iff.mp hbody) name rfl
  · exact fun a _ b hb => hunknown _ _ b hb a
  · exact fun a _ b hb => hunknown _ _ b hb a

/-- The error to report is on the smallest line that has one; where the label of that line is
defined twice, it says so. -/
structure Reported (raw : List (List Char)) (e : AssemblyError) : Prop where
  fault : FaultAt raw e.line e.fault
  least : ∀ k fault, FaultAt raw k fault → e.line ≤ k
  label : ∀ name, FaultAt raw e.line (.duplicateLabel name) → e.fault = .duplicateLabel name

theorem Reported.unique {raw : List (List Char)} {e d : AssemblyError} (he : Reported raw e)
    (hd : Reported raw d) : e = d := by
  have hline : e.line = d.line :=
    Nat.le_antisymm (he.least _ _ hd.fault) (hd.least _ _ he.fault)
  obtain ⟨k, f⟩ := e
  obtain ⟨l, g⟩ := d
  obtain rfl : k = l := hline
  have hsame : f = g := by
    cases he.fault with
    | duplicate hk hname hj ha habove => exact (hd.label _ he.fault).symm
    | instruction hk hf =>
      have hbody : (SourceLine.read k _).body = .error f := SourceLine.body_read_error_iff.mpr hf
      cases hd.fault with
      | duplicate => exact he.label _ hd.fault
      | instruction hk' hg =>
        cases hk.symm.trans hk'
        cases hbody.symm.trans (SourceLine.body_read_error_iff.mpr hg)
        rfl
      | unknown hk' hi =>
        cases hk.symm.trans hk'
        cases hbody.symm.trans (SourceLine.body_read_some_iff.mpr hi)
    | unknown hk hi ht =>
      have hbody := SourceLine.body_read_some_iff.mpr hi
      cases hd.fault with
      | duplicate => exact he.label _ hd.fault
      | instruction hk' hg =>
        cases hk.symm.trans hk'
        cases hbody.symm.trans (SourceLine.body_read_error_iff.mpr hg)
      | unknown hk' hi' ht' =>
        cases hk.symm.trans hk'
        cases hbody.symm.trans (SourceLine.body_read_some_iff.mpr hi')
        cases ht.symm.trans ht'
        rfl
  rw [hsame]

theorem reported_of_earliest? {raw : List (List Char)} {e : AssemblyError}
    (h : AssemblyError.earliest? (errors raw) = some e) : Reported raw e := by
  obtain ⟨before, after, hsplit, hbefore, hafter⟩ := AssemblyError.earliest?_split h
  have hranked := errors_ranked raw
  rw [hsplit] at hranked
  have hmem : ∀ {k fault}, FaultAt raw k fault →
      (⟨k, fault⟩ : AssemblyError) ∈ before ++ e :: after :=
    fun hf => hsplit ▸ mem_errors_iff.mpr hf
  refine ⟨mem_errors_iff.mp (by simp [hsplit]), ?_, ?_⟩
  · intro k fault hf
    rcases List.mem_append.mp (hmem hf) with hin | hin
    · exact Nat.le_of_lt (hbefore _ hin)
    · rcases List.mem_cons.mp hin with heq | hin
      · exact Nat.le_of_eq (congrArg AssemblyError.line heq).symm
      · exact hafter _ hin
  · intro name hf
    rcases List.mem_append.mp (hmem hf) with hin | hin
    · exact absurd (hbefore _ hin) (Nat.lt_irrefl _)
    · rcases List.mem_cons.mp hin with heq | hin
      · rw [← heq]
      · have hcons := (List.pairwise_append.mp hranked).2.1
        exact absurd rfl ((List.pairwise_cons.mp hcons).1 _ hin rfl name)

theorem earliest?_errors_iff {raw : List (List Char)} {e : AssemblyError} :
    AssemblyError.earliest? (errors raw) = some e ↔ Reported raw e := by
  constructor
  · exact reported_of_earliest?
  · intro h
    cases hfound : AssemblyError.earliest? (errors raw) with
    | none =>
      have hmem := mem_errors_iff.mpr h.fault
      rw [AssemblyError.earliest?_eq_none hfound] at hmem
      cases hmem
    | some d => rw [(reported_of_earliest? hfound).unique h]

theorem earliest?_errors_eq_none_iff {raw : List (List Char)} :
    AssemblyError.earliest? (errors raw) = none ↔ ∀ k fault, ¬FaultAt raw k fault := by
  constructor
  · intro h k fault hf
    have hmem := mem_errors_iff (e := ⟨k, fault⟩).mpr hf
    rw [AssemblyError.earliest?_eq_none h] at hmem
    cases hmem
  · intro h
    cases hfound : AssemblyError.earliest? (errors raw) with
    | none => rfl
    | some e => exact absurd (reported_of_earliest? hfound).fault (h _ _)

/-- A text without a fault: each line is vacant or holds an instruction, no label stands on two
lines, and the labels that are jumped to are there. -/
structure Valid (raw : List (List Char)) : Prop where
  lines : ∀ k text, raw[k]? = some text → Vacant text ∨ ∃ i, Holds k text i
  labels : ∀ (j k : Nat) above text name, raw[j]? = some above → raw[k]? = some text →
    Labelled above name → Labelled text name → j = k
  targets : ∀ k text i name, raw[k]? = some text → Holds k text i →
    i.target? = some (.label name) → ∃ other ∈ raw, Labelled other name

theorem valid_iff {raw : List (List Char)} : Valid raw ↔ ∀ k fault, ¬FaultAt raw k fault := by
  constructor
  · intro h k fault hf
    cases hf with
    | duplicate hk hname hj ha habove =>
      exact absurd (h.labels _ _ _ _ _ ha hk habove hname) (Nat.ne_of_lt hj)
    | instruction hk hf =>
      have hbody : (SourceLine.read k _).body = .error fault :=
        SourceLine.body_read_error_iff.mpr hf
      rcases h.lines k _ hk with hvacant | ⟨i, hi⟩
      · cases hbody.symm.trans (SourceLine.body_read_none_iff.mpr hvacant)
      · cases hbody.symm.trans (SourceLine.body_read_some_iff.mpr hi)
    | unknown hk hi ht hname =>
      obtain ⟨other, hother, hdefined⟩ := h.targets k _ _ _ hk hi ht
      exact hname other hother hdefined
  · intro h
    refine ⟨fun k text hk => ?_, fun j k above text name ha hk habove hname => ?_,
      fun k text i name hk hi ht => ?_⟩
    · cases hbody : (SourceLine.read k text).body with
      | error fault =>
        have hfaulty := SourceLine.body_read_error_iff.mp hbody
        exact absurd (.instruction hk hfaulty) (h k _)
      | ok found =>
        cases found with
        | none => exact .inl (SourceLine.body_read_none_iff.mp hbody)
        | some i => exact .inr ⟨i, SourceLine.body_read_some_iff.mp hbody⟩
    · rcases Nat.lt_trichotomy j k with hlt | heq | hlt
      · exact absurd (.duplicate hk hname hlt ha habove) (h k _)
      · exact heq
      · exact absurd (.duplicate ha habove hlt hk hname) (h j _)
    · by_contra hnone
      refine h k _ (.unknown hk hi ht fun other hother hdefined => ?_)
      exact hnone ⟨other, hother, hdefined⟩

end Assembly

/-- The same instruction, but that a target by name or by distance may have become another
distance. -/
inductive Instruction.Aims (i : Instruction) : Instruction → Prop
  | same : Aims i i
  | aimed {first : List Operand} {target : Operand} (d : Int32) (hjump : i.opcode.isJump)
      (hops : i.operands = first ++ [target])
      (ht : (∃ name, target = .label name) ∨ ∃ distance, target = .offset distance) :
      Aims i { i with operands := first ++ [.offset d] }

theorem Instruction.aims_withTarget {i : Instruction} {target : Operand} (d : Int32)
    (h : i.target? = some target)
    (ht : (∃ name, target = .label name) ∨ ∃ distance, target = .offset distance) :
    i.Aims (i.withTarget (.offset d)) := by
  obtain ⟨hjump, first, hops⟩ := target?_eq_some h
  rw [Instruction.withTarget, hops, List.dropLast_concat]
  exact .aimed d hjump hops ht

theorem Instruction.aims_resolve (i : Instruction) (labels : Table String Nat)
    (length index : Nat) : i.Aims (i.resolve labels length index).1 := by
  unfold Instruction.resolve
  cases htarget : i.target? with
  | none => exact .same
  | some target =>
    cases target with
    | label name =>
      cases hname : labels.find? name with
      | none => simpa [Operand.resolve, hname] using .same
      | some place =>
        simp only [Operand.resolve, hname]
        exact aims_withTarget _ htarget (.inl ⟨name, rfl⟩)
    | offset distance => exact aims_withTarget _ htarget (.inr ⟨distance, rfl⟩)
    | _ =>
      simp only [Operand.resolve, withTarget_target htarget]
      exact .same

theorem Program.aims_resolve (p : Program) (labelLines : Table String Nat) :
    List.Forall₂ Instruction.Aims p (p.resolve labelLines).program := by
  have hp : p.zipIdx.map Prod.fst = p := List.zipIdx_map_fst 0 p
  simp only [Program.resolve, List.map_map]
  nth_rewrite 1 [← hp]
  rw [List.forall₂_map_left_iff, List.forall₂_map_right_iff, List.forall₂_same]
  exact fun e _ => e.1.aims_resolve _ _ _

namespace Assembly

/-- What an assembly says of the lines of a text. -/
structure Faithful (raw : List (List Char)) (capacity : Nat) (a : Assembly) : Prop where
  accepted : a.error = none ↔ raw.length ≤ capacity ∧ Valid raw
  overfull : capacity < raw.length → ∃ e, a.error = some e ∧ e.line = max capacity 1 - 1 ∧
    e.message = "Too many lines (max " ++ Text.numeral capacity ++ ")"
  reported : raw.length ≤ capacity → ∀ e, a.error = some e ↔ Reported raw e
  /-- the instructions are those that lines hold, in the order of the lines and with the lines of the
  labels put in -/
  kept : ∃ (kept : Program) (lines : Table String Nat),
    kept.Pairwise (fun i j => i.line < j.line) ∧
    (∀ i, i ∈ kept ↔ ∃ text, raw[i.line]? = some text ∧ Holds i.line text i) ∧
    (∀ name line, lines.find? name = some line ↔ DefinesFirst raw name line) ∧
    a.program = (kept.resolve lines).program ∧
    List.Forall₂ Instruction.Aims kept a.program

theorem error_assemble (source : String) (capacity : Nat) :
    (assemble source capacity).error =
      if capacity < (Text.lines source.toList).length then
        some ⟨capacity - 1, .tooManyLines capacity⟩
      else AssemblyError.earliest? (errors (Text.lines source.toList)) := rfl

theorem assemble_faithful (source : String) (capacity : Nat) :
    Faithful (Text.lines source.toList) capacity (assemble source capacity) := by
  refine ⟨?_, fun hover => ?_, fun hroom e => ?_, ?_⟩
  · rw [error_assemble]
    split_ifs with hover
    · simp [Nat.not_le_of_lt hover]
    · rw [earliest?_errors_eq_none_iff, ← valid_iff]
      simp [Nat.le_of_not_lt hover]
  · refine ⟨⟨capacity - 1, .tooManyLines capacity⟩, ?_, ?_, rfl⟩
    · rw [error_assemble, if_pos hover]
    · simp only
      omega
  · rw [error_assemble, if_neg (Nat.not_lt_of_le hroom)]
    exact earliest?_errors_iff
  · refine ⟨instructions (readLines (Text.lines source.toList)), _, instructions_ordered _, ?_,
      fun name line => find?_labelLines_iff, rfl, ?_⟩
    · exact fun i => mem_instructions_iff
    · exact Program.aims_resolve _ _

end Assembly
end Lockstep
