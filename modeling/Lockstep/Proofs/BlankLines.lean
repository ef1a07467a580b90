import Lockstep.Proofs.Acceptance
import Mathlib.Data.List.TakeWhile
import Mathlib.Order.Monotone.Basic

/-!
Lines that hold nothing. A line of white space, with or without a comment after it, gives neither a
label nor an instruction nor an error, so all that it does is move the lines below it on by one.
Labels, distances and the choice of an error depend on the order of lines only, and moving lines on
keeps their order.
-/
namespace Lockstep

/-! Lines that are renumbered, in a way that keeps their order. -/

def Instruction.onLine (f : Nat → Nat) (i : Instruction) : Instruction :=
  { i with line := f i.line }

def AssemblyError.onLine (f : Nat → Nat) (e : AssemblyError) : AssemblyError :=
  { e with line := f e.line }

def SourceLine.onLine (f : Nat → Nat) (l : SourceLine) : SourceLine :=
  { l with body := l.body.map (Option.map (Instruction.onLine f)) }

variable {f : Nat → Nat}

theorem AssemblyError.earliest?_onLine (hf : StrictMono f) (es : List AssemblyError) :
    earliest? (es.map (onLine f)) = (earliest? es).map (onLine f) := by
  induction es using List.reverseRecOn with
  | nil => rfl
  | append_singleton es e ih =>
    simp only [earliest?, List.map_append, List.map_cons, List.map_nil, List.foldl_append,
      List.foldl_cons, List.foldl_nil] at ih ⊢
    rw [ih]
    cases es.foldl earlier none with
    | none => rfl
    | some first =>
      have hle : (first.onLine f).line ≤ (e.onLine f).line ↔ first.line ≤ e.line := hf.le_iff_le
      simp only [Option.map_some, earlier, hle]
      split_ifs <;> rfl

theorem Instruction.resolve_onLine (labels : Table String Nat) (length index : Nat)
    (i : Instruction) :
    (i.onLine f).resolve labels length index =
      ((i.resolve labels length index).1.onLine f,
        (i.resolve labels length index).2.map (AssemblyError.onLine f)) := by
  have htarget : (i.onLine f).target? = i.target? := rfl
  rw [Instruction.resolve, Instruction.resolve, htarget]
  cases i.target? with
  | none => rfl
  | some target =>
    simp only
    cases target.resolve labels length index <;> rfl

theorem Table.map_map {κ α β γ : Type} (g : β → γ) (f : α → β) (t : Table κ α) :
    (t.map f).map g = t.map (g ∘ f) := by
  simp only [Table.map, List.map_map]
  rfl

theorem Table.map_insertNew {κ α β : Type} [Ord κ] (f : α → β) (t : Table κ α) (key : κ) (a : α) :
    (t.insertNew key a).map f = (t.map f).insertNew key (f a) := by
  obtain ⟨es⟩ := t
  simp only [Table.map, Table.insertNew, Table.mk.injEq]
  induction es with
  | nil => rfl
  | cons e es ih =>
    simp only [List.map_cons, Table.alterIn]
    cases compare key e.1 with
    | lt => rfl
    | eq => rfl
    | gt => rw [List.map_cons, ih]

namespace Program

theorem indexFrom_onLine (hf : StrictMono f) (p : Program) (line : Nat) :
    indexFrom (p.map (Instruction.onLine f)) (f line) = p.indexFrom line := by
  have hle : ∀ i : Instruction, (f line ≤ (i.onLine f).line) = (line ≤ i.line) :=
    fun i => propext hf.le_iff_le
  simp only [indexFrom, List.findIdx?_map, Function.comp_def, hle]

theorem resolve_onLine (hf : StrictMono f) (p : Program) (labelLines : Table String Nat) :
    resolve (p.map (Instruction.onLine f)) (labelLines.map f) =
      ⟨(p.resolve labelLines).program.map (Instruction.onLine f), (p.resolve labelLines).labels,
        (p.resolve labelLines).errors.map (AssemblyError.onLine f)⟩ := by
  have hlabels : labelIndices (p.map (Instruction.onLine f)) (labelLines.map f) =
      p.labelIndices labelLines := by
    rw [labelIndices, Table.map_map]
    exact congrArg labelLines.map (funext (p.indexFrom_onLine hf))
  simp only [resolve, hlabels, List.zipIdx_map, List.map_map, List.length_map, List.map_filterMap,
    List.filterMap_map, Resolution.mk.injEq, true_and]
  refine ⟨List.map_congr_left ?_, List.filterMap_congr ?_⟩
  · rintro ⟨i, index⟩ -
    exact congrArg Prod.fst (i.resolve_onLine _ _ index)
  · rintro ⟨i, index⟩ -
    exact congrArg Prod.snd (i.resolve_onLine _ _ index)

end Program

namespace SourceLine

theorem instruction_onLine (n : Nat) (s : List Char) :
    instruction (f n) s = (instruction n s).map (Instruction.onLine f) := by
  simp only [instruction]
  cases Text.words s with
  | nil => rfl
  | cons word rest =>
    simp only
    split_ifs
    · rfl
    · cases Opcode.ofWord? word with
      | none => rfl
      | some opcode =>
        simp only
        split_ifs
        · cases operands 1 opcode.signature rest <;> rfl
        · rfl

theorem read_onLine (n : Nat) (raw : List Char) : read (f n) raw = (read n raw).onLine f := by
  simp only [read_eq, onLine]
  split_ifs
  · rfl
  · rw [instruction_onLine]
    cases instruction n (splitLabel (code raw)).2 <;> rfl

end SourceLine

namespace Assembly

def readFrom (n : Nat) (raw : List (List Char)) : List SourceLine :=
  (raw.zipIdx n).map fun l => SourceLine.read l.2 l.1

theorem readLines_eq (raw : List (List Char)) : readLines raw = readFrom 0 raw := rfl

theorem readFrom_append (n : Nat) (before after : List (List Char)) :
    readFrom n (before ++ after) = readFrom n before ++ readFrom (n + before.length) after := by
  rw [readFrom, List.zipIdx_append, List.map_append]
  rfl

theorem length_readFrom (n : Nat) (raw : List (List Char)) :
    (readFrom n raw).length = raw.length := by
  rw [readFrom, List.length_map, List.length_zipIdx]

section Renumbered
variable {n m : Nat} {raw : List (List Char)} {ls : List SourceLine}

def Renumbers (f : Nat → Nat) (n m length : Nat) : Prop := ∀ k < length, f (n + k) = m + k

theorem Renumbers.head {length : Nat} (h : Renumbers f n m (length + 1)) : f n = m :=
  h 0 (Nat.zero_lt_succ length)

theorem Renumbers.tail {length : Nat} (h : Renumbers f n m (length + 1)) :
    Renumbers f (n + 1) (m + 1) length := by
  intro k hk
  have hnext := h (k + 1) (by omega)
  rw [show n + 1 + k = n + (k + 1) by omega, hnext]
  omega

theorem readFrom_onLine (h : Renumbers f n m raw.length) :
    readFrom m raw = (readFrom n raw).map (SourceLine.onLine f) := by
  induction raw generalizing n m with
  | nil => rfl
  | cons text raw ih =>
    have hrest := ih h.tail
    simp only [readFrom, List.zipIdx_cons, List.map_cons] at hrest ⊢
    rw [hrest, ← h.head, SourceLine.read_onLine]

theorem instructions_onLine (ls : List SourceLine) :
    instructions (ls.map (SourceLine.onLine f)) = (instructions ls).map (Instruction.onLine f) := by
  simp only [instructions, List.filterMap_map, List.map_filterMap]
  refine List.filterMap_congr fun l _ => ?_
  simp only [Function.comp_apply, SourceLine.onLine]
  cases l.body <;> rfl

theorem labelLines_onLine (h : Renumbers f n m ls.length) (found : Table String Nat) :
    labelLines m (ls.map (SourceLine.onLine f)) (found.map f) =
      (labelLines n ls found).map f := by
  induction ls generalizing n m found with
  | nil => rfl
  | cons l ls ih =>
    have hlabel : (l.onLine f).label = l.label := rfl
    simp only [List.map_cons, labelLines, hlabel]
    cases l.label with
    | none => exact ih h.tail found
    | some name =>
      have hrest := ih h.tail (found.insertNew name n)
      rw [Table.map_insertNew, h.head] at hrest
      exact hrest

theorem errorsFrom_onLine (h : Renumbers f n m ls.length) (known : List String) :
    errorsFrom m (ls.map (SourceLine.onLine f)) known =
      (errorsFrom n ls known).map (AssemblyError.onLine f) := by
  induction ls generalizing n m known with
  | nil => rfl
  | cons l ls ih =>
    have hline : lineErrors m (l.onLine f) known =
        (lineErrors n l known).map (AssemblyError.onLine f) := by
      simp only [lineErrors, SourceLine.onLine, List.map_append, ← h.head]
      congr 1
      · cases l.label with
        | none => rfl
        | some name =>
          simp only
          split_ifs <;> rfl
      · cases l.body <;> rfl
    rw [List.map_cons, errorsFrom, errorsFrom, hline, List.map_append]
    exact congrArg _ (ih h.tail _)

end Renumbered

theorem labelLines_append (n : Nat) (before after : List SourceLine) (found : Table String Nat) :
    labelLines n (before ++ after) found =
      labelLines (n + before.length) after (labelLines n before found) := by
  induction before generalizing n found with
  | nil => rfl
  | cons l before ih =>
    rw [List.cons_append, labelLines, labelLines, ih, List.length_cons]
    congr 1
    omega

def labelsOf (ls : List SourceLine) : List String := ls.reverse.flatMap fun l => l.label.toList

theorem errorsFrom_append (n : Nat) (before after : List SourceLine) (known : List String) :
    errorsFrom n (before ++ after) known =
      errorsFrom n before known ++
        errorsFrom (n + before.length) after (labelsOf before ++ known) := by
  induction before generalizing n known with
  | nil => rfl
  | cons l before ih =>
    rw [List.cons_append, errorsFrom, errorsFrom, ih, List.append_assoc, List.length_cons]
    congr 3
    · omega
    · simp [labelsOf]

end Assembly

/-! Lines that hold nothing. -/

namespace Text

theorem lowerChar_blank {c : Char} (h : isBlank c) : c ≠ 'Σ' ∧ lowerChar c = [c] := by
  -- the ranges are short, so that each of their characters can be tried
  have hall : ∀ r ∈ blankRanges, ∀ k ≤ r.2 - r.1, Char.ofNat (r.1 + k) ≠ 'Σ' ∧
      lowerChar (Char.ofNat (r.1 + k)) = [Char.ofNat (r.1 + k)] := by decide +kernel
  obtain ⟨r, hr, hin⟩ := List.any_eq_true.mp h
  simp only [Bool.and_eq_true, decide_eq_true_eq] at hin
  have hc := hall r hr (c.toNat - r.1) (by omega)
  rwa [Nat.add_sub_cancel' hin.1, Char.ofNat_toNat] at hc

theorem trim_blank {s : List Char} (h : ∀ c ∈ s, isBlank c) : trim s = [] := by
  rw [trim, List.dropWhile_eq_nil_iff.mpr h]
  rfl

def ofLines (ls : List (List Char)) : String := String.ofList (ls.flatMap (· ++ ['\n']))

def withoutReturn : List Char → List Char
  | [] => []
  | ['\r'] => []
  | c :: rest => c :: withoutReturn rest

theorem lines_line {l : List Char} (h : '\n' ∉ l) (rest : List Char) :
    lines (l ++ '\n' :: rest) = withoutReturn l :: lines rest := by
  induction l with
  | nil => rfl
  | cons c l ih =>
    by_cases hlast : c = '\r' ∧ l = []
    · obtain ⟨rfl, rfl⟩ := hlast
      exact lines.eq_2 rest
    · have hin : ∀ more, c = '\r' → l ++ '\n' :: rest = '\n' :: more → False := by
        intro more hc hmore
        cases l with
        | nil => exact hlast ⟨hc, rfl⟩
        | cons d l =>
          have hd : d = '\n' := (List.cons.inj hmore).1
          exact h (hd ▸ .tail _ (.head _))
      rw [List.cons_append, lines.eq_4 _ _ hin fun hc => h (hc ▸ .head _),
        ih fun hl => h (.tail _ hl), withoutReturn.eq_3 _ _ fun hc hl => hlast ⟨hc, hl⟩]

theorem lines_ofLines {ls : List (List Char)} (h : ∀ l ∈ ls, '\n' ∉ l) :
    lines (ofLines ls).toList = ls.map withoutReturn := by
  rw [ofLines, String.toList_ofList]
  induction ls with
  | nil => rfl
  | cons l ls ih =>
    rw [List.flatMap_cons, List.append_assoc, List.singleton_append, lines_line (h l (.head _)),
      ih fun k hk => h k (.tail _ hk), List.map_cons]

end Text

namespace SourceLine

/-- White space alone, or before a comment. -/
def isIdle (raw : List Char) : Bool := (raw.takeWhile fun c => !startsComment c).all Text.isBlank

theorem isIdle_cons (c : Char) (raw : List Char) :
    isIdle (c :: raw) = (startsComment c || Text.isBlank c && isIdle raw) := by
  cases h : startsComment c <;> simp [isIdle, h]

theorem isIdle_withoutReturn {raw : List Char} (h : isIdle raw) :
    isIdle (Text.withoutReturn raw) := by
  fun_induction Text.withoutReturn raw with
  | case1 => exact h
  | case2 => rfl
  | case3 c raw hlast ih =>
    simp only [isIdle_cons, Bool.or_eq_true, Bool.and_eq_true] at h ⊢
    exact h.imp_right fun hidle => ⟨hidle.1, ih hidle.2⟩

theorem lowerChar_comment {c : Char} (h : startsComment c) : c ≠ 'Σ' ∧ Text.lowerChar c = [c] := by
  simp only [startsComment, Bool.or_eq_true, beq_iff_eq] at h
  rcases h with rfl | rfl <;> decide

theorem code_idle {raw : List Char} (h : isIdle raw) : code raw = [] := by
  have hlower : ∀ before, (Text.lowerAfter before raw).takeWhile (fun c => !startsComment c) =
      raw.takeWhile fun c => !startsComment c := by
    induction raw with
    | nil => exact fun before => rfl
    | cons c raw ih =>
      intro before
      rw [isIdle_cons, Bool.or_eq_true, Bool.and_eq_true] at h
      have hsame : c ≠ 'Σ' ∧ Text.lowerChar c = [c] :=
        h.elim lowerChar_comment fun hidle => Text.lowerChar_blank hidle.1
      rw [Text.lowerAfter, if_neg hsame.1, hsame.2, List.singleton_append]
      by_cases hc : startsComment c
      · simp [hc]
      · have hidle := (h.resolve_left hc).2
        simp [hc, ih hidle]
  rw [code, Text.lowercase, hlower]
  exact Text.trim_blank (List.all_eq_true.mp h)

theorem read_idle {raw : List Char} (h : isIdle raw) (n : Nat) : read n raw = ⟨none, .ok none⟩ := by
  rw [read_eq, code_idle h]
  rfl

end SourceLine

namespace Assembly

def shiftedLine (place line : Nat) : Nat := if line < place then line else line + 1

theorem shiftedLine_strictMono (place : Nat) : StrictMono (shiftedLine place) := by
  intro a b hab
  simp only [shiftedLine]
  split_ifs <;> omega

theorem shiftedLine_above (place : Nat) : Renumbers (shiftedLine place) 0 0 place := by
  intro k hk
  rw [shiftedLine, if_pos (by omega)]

theorem shiftedLine_below (place length : Nat) :
    Renumbers (shiftedLine place) place (place + 1) length := by
  intro k _
  rw [shiftedLine, if_neg (by omega)]
  omega

def inserted (before after : List SourceLine) : List SourceLine :=
  before.map (SourceLine.onLine (shiftedLine before.length)) ++
    ⟨none, .ok none⟩ :: after.map (SourceLine.onLine (shiftedLine before.length))

theorem readLines_idle {idle : List Char} (hidle : SourceLine.isIdle idle)
    (before after : List (List Char)) :
    readLines (before ++ idle :: after) =
      inserted (readFrom 0 before) (readFrom before.length after) := by
  have habove := readFrom_onLine (shiftedLine_above before.length)
  have hbelow := readFrom_onLine (shiftedLine_below before.length after.length)
  have hcons : readFrom before.length (idle :: after) =
      SourceLine.read before.length idle :: readFrom (before.length + 1) after := rfl
  rw [inserted, length_readFrom, ← habove, ← hbelow, readLines_eq, readFrom_append, Nat.zero_add,
    hcons, SourceLine.read_idle hidle]

theorem readLines_append (before after : List (List Char)) :
    readLines (before ++ after) = readFrom 0 before ++ readFrom before.length after := by
  rw [readLines_eq, readFrom_append, Nat.zero_add]

section Inserted
variable (before after : List SourceLine)

theorem instructions_inserted :
    instructions (inserted before after) = (instructions (before ++ after)).map
      (Instruction.onLine (shiftedLine before.length)) := by
  rw [inserted, ← instructions_onLine, List.map_append]
  simp only [instructions, List.filterMap_append, List.filterMap_cons]

theorem labelLines_inserted :
    labelLines 0 (inserted before after) .empty =
      (labelLines 0 (before ++ after) .empty).map (shiftedLine before.length) := by
  have habove := labelLines_onLine (shiftedLine_above before.length) .empty
  have hbelow := labelLines_onLine (shiftedLine_below before.length after.length)
    (labelLines 0 before .empty)
  rw [inserted, labelLines_append, labelLines_append, labelLines, List.length_map, Nat.zero_add,
    ← hbelow, ← habove]
  rfl

theorem labelsOf_onLine (f : Nat → Nat) (ls : List SourceLine) :
    labelsOf (ls.map (SourceLine.onLine f)) = labelsOf ls := by
  rw [labelsOf, ← List.map_reverse, List.flatMap_map]
  rfl

theorem errorsFrom_inserted :
    errorsFrom 0 (inserted before after) [] = (errorsFrom 0 (before ++ after) []).map
      (AssemblyError.onLine (shiftedLine before.length)) := by
  have habove := errorsFrom_onLine (shiftedLine_above before.length) []
  have hbelow := errorsFrom_onLine (shiftedLine_below before.length after.length)
    (labelsOf before ++ [])
  rw [inserted, errorsFrom_append, errorsFrom_append, errorsFrom, List.length_map, Nat.zero_add,
    labelsOf_onLine, List.map_append, ← hbelow, ← habove]
  rfl

end Inserted

def resolution (raw : List (List Char)) : Resolution :=
  (instructions (readLines raw)).resolve (labelLines 0 (readLines raw) .empty)

theorem assemble_eq (source : String) {capacity : Nat}
    (hroom : (Text.lines source.toList).length ≤ capacity) :
    assemble source capacity =
      { program := (resolution (Text.lines source.toList)).program
        labels := (resolution (Text.lines source.toList)).labels
        lineCount := (Text.lines source.toList).length
        error := AssemblyError.earliest? (errors (Text.lines source.toList)) } := by
  have herror := error_assemble source capacity
  rw [if_neg (Nat.not_lt.mpr hroom)] at herror
  rw [← herror]
  rfl

section Idle
variable {idle : List Char} (hidle : SourceLine.isIdle idle) (before after : List (List Char))

include hidle

theorem resolution_idle :
    resolution (before ++ idle :: after) =
      { program := (resolution (before ++ after)).program.map
          (Instruction.onLine (shiftedLine before.length))
        labels := (resolution (before ++ after)).labels
        errors := (resolution (before ++ after)).errors.map
          (AssemblyError.onLine (shiftedLine before.length)) } := by
  rw [resolution, readLines_idle hidle, instructions_inserted, labelLines_inserted,
    Program.resolve_onLine (shiftedLine_strictMono _), length_readFrom, ← readLines_append]
  rfl

theorem errors_idle :
    errors (before ++ idle :: after) = (errors (before ++ after)).map
      (AssemblyError.onLine (shiftedLine before.length)) := by
  have hresolved := congrArg Resolution.errors (resolution_idle hidle before after)
  have hread : errorsFrom 0 (readLines (before ++ idle :: after)) [] =
      (errorsFrom 0 (readLines (before ++ after)) []).map
        (AssemblyError.onLine (shiftedLine before.length)) := by
    rw [readLines_idle hidle, errorsFrom_inserted, length_readFrom, ← readLines_append]
  rw [errors, errors, List.map_append, hread]
  exact congrArg _ hresolved

end Idle

def shifted (place : Nat) (a : Assembly) : Assembly :=
  { program := a.program.map (Instruction.onLine (shiftedLine place))
    labels := a.labels
    lineCount := a.lineCount + 1
    error := a.error.map (AssemblyError.onLine (shiftedLine place)) }

/-- A line of white space or of a comment, put in anywhere, only moves the lines below it on: the
instructions with their distances, the labels and the error stay what they are. -/
theorem idle_line_shifts {before after : List (List Char)} {idle : List Char} {capacity : Nat}
    (hidle : SourceLine.isIdle idle) (hlines : ∀ l ∈ before ++ idle :: after, '\n' ∉ l)
    (hroom : (before ++ idle :: after).length ≤ capacity) :
    assemble (Text.ofLines (before ++ idle :: after)) capacity =
      (assemble (Text.ofLines (before ++ after)) capacity).shifted before.length := by
  have hlong := Text.lines_ofLines hlines
  have hshort : Text.lines (Text.ofLines (before ++ after)).toList =
      before.map Text.withoutReturn ++ after.map Text.withoutReturn := by
    rw [Text.lines_ofLines, List.map_append]
    intro l hl
    rcases List.mem_append.mp hl with hl | hl
    · exact hlines l (List.mem_append_left _ hl)
    · exact hlines l (List.mem_append_right _ (.tail _ hl))
  rw [List.map_append, List.map_cons] at hlong
  have hbare := SourceLine.isIdle_withoutReturn hidle
  have hresolution := resolution_idle hbare (before.map Text.withoutReturn)
    (after.map Text.withoutReturn)
  have herrors := errors_idle hbare (before.map Text.withoutReturn) (after.map Text.withoutReturn)
  rw [List.length_map] at hresolution herrors
  rw [List.length_append, List.length_cons] at hroom
  rw [assemble_eq, assemble_eq, hlong, hshort, shifted, hresolution, herrors,
    AssemblyError.earliest?_onLine (shiftedLine_strictMono _)]
  · simp only [List.length_append, List.length_cons, List.length_map, Nat.add_assoc]
  · rw [hshort, List.length_append, List.length_map, List.length_map]
    omega
  · rw [hlong, List.length_append, List.length_cons, List.length_map, List.length_map]
    exact hroom

def outward : List (List Char) := ["JEZ CH1 home".toList, "home:".toList]

def homeward : List (List Char) := ["inc\r".toList, "JMP lost".toList, "end:".toList]

def aside : List Char := "\t# home: JMP lost".toList

theorem idle_line_shifts_aside :
    SourceLine.isIdle aside ∧
      assemble (Text.ofLines (outward ++ aside :: homeward)) 8 =
        (assemble (Text.ofLines (outward ++ homeward)) 8).shifted 2 ∧
      (assemble (Text.ofLines (outward ++ homeward)) 8).error = some ⟨3, .unknownLabel "lost"⟩ ∧
      (assemble (Text.ofLines (outward ++ aside :: homeward)) 8).error =
        some ⟨4, .unknownLabel "lost"⟩ := by
  have hidle : SourceLine.isIdle aside := by decide +kernel
  exact ⟨hidle, idle_line_shifts hidle (by decide +kernel) (by decide), by decide +kernel,
    by decide +kernel⟩

end Assembly
end Lockstep
