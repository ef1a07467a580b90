import Lockstep.Program.Assembly
import Lockstep.Proofs.ProgramCode

/-!
The listing of a program assembles to that program. Each instruction is listed on a line of its own
as words with a space between each two; in lower case the words are those that are read.
-/
namespace Lockstep

namespace Text

def isPlain (c : Char) : Bool := c.isLower || c.isDigit || c == '-'

theorem isPlain_ascii {c : Char} (h : isPlain c) : c.toNat < 128 := by
  have hrange : ∀ {low high : UInt32}, high.toNat < 128 →
      (decide (low ≤ c.val) && decide (c.val ≤ high)) → c.toNat < 128 := by
    intro low high hhigh hc
    have hle := of_decide_eq_true (Bool.and_eq_true_iff.mp hc).2
    exact Nat.lt_of_le_of_lt (UInt32.le_iff_toNat_le.mp hle) hhigh
  simp only [isPlain, Bool.or_eq_true, beq_iff_eq] at h
  rcases h with (h | h) | rfl
  · exact hrange (by decide) h
  · exact hrange (by decide) h
  · decide

theorem isPlain_spec {c : Char} (h : isPlain c) :
    separatesWords c = false ∧ isBlank c = false ∧ SourceLine.startsComment c = false ∧ c ≠ ':' ∧
      c ≠ '\n' ∧ c ≠ '\r' := by
  have hall : ∀ n < 128, isPlain (Char.ofNat n) → separatesWords (Char.ofNat n) = false ∧
      isBlank (Char.ofNat n) = false ∧ SourceLine.startsComment (Char.ofNat n) = false ∧
      Char.ofNat n ≠ ':' ∧ Char.ofNat n ≠ '\n' ∧ Char.ofNat n ≠ '\r' := by decide
  have hc := hall c.toNat (isPlain_ascii h)
  rw [Char.ofNat_toNat] at hc
  exact hc h

theorem isPlain_of_isDigit {c : Char} (h : c.isDigit) : isPlain c := by
  simp [isPlain, h]

theorem lowercase_ascii {s : List Char} (h : ∀ c ∈ s, c.toNat < 128) :
    lowercase s = s.map Char.toLower := by
  have hafter : ∀ before, lowerAfter before s = s.map Char.toLower := by
    induction s with
    | nil => exact fun _ => rfl
    | cons c s ih =>
      intro before
      have hc := h c (.head _)
      have hsigma : c ≠ 'Σ' := by
        rintro rfl
        exact absurd hc (by decide)
      rw [lowerAfter, if_neg hsigma, lowerChar, if_pos hc, ih fun d hd => h d (.tail _ hd)]
      rfl
  exact hafter []

theorem toLower_digits (n : Nat) : (digits n).map Char.toLower = digits n := by
  have hall : ∀ n < 128, (Char.ofNat n).isDigit → (Char.ofNat n).toLower = Char.ofNat n := by decide
  conv_rhs => rw [← List.map_id (digits n)]
  apply List.map_congr_left
  intro c hc
  have hd := isDigit_of_mem_digits hc
  have hlow := hall c.toNat (isPlain_ascii (isPlain_of_isDigit hd))
  rw [Char.ofNat_toNat] at hlow
  exact hlow hd

/-! Lines. -/

def InLine (c : Char) : Prop := c ≠ '\n' ∧ c ≠ '\r'

theorem lines_cons {c : Char} (hc : InLine c) (s : List Char) :
    lines (c :: s) =
      match lines s with
      | [] => [[c]]
      | line :: more => (c :: line) :: more :=
  lines.eq_4 c s (fun _ hr _ => hc.2 hr) hc.1

theorem lines_last {s : List Char} (hne : s ≠ []) (h : ∀ c ∈ s, InLine c) : lines s = [s] := by
  induction s with
  | nil => exact absurd rfl hne
  | cons c s ih =>
    rw [lines_cons (h c (.head _))]
    cases s with
    | nil => rfl
    | cons d s => rw [ih (List.cons_ne_nil _ _) fun e he => h e (.tail _ he)]

theorem lines_break {s : List Char} (h : ∀ c ∈ s, InLine c) (rest : List Char) :
    lines (s ++ '\n' :: rest) = s :: lines rest := by
  induction s with
  | nil => rw [List.nil_append, lines]
  | cons c s ih =>
    rw [List.cons_append, lines_cons (h c (.head _)), ih fun e he => h e (.tail _ he)]

theorem lines_intercalate {ls : List (List Char)} (h : ∀ l ∈ ls, l ≠ [] ∧ ∀ c ∈ l, InLine c) :
    lines (['\n'].intercalate ls) = ls := by
  induction ls with
  | nil => rfl
  | cons l ls ih =>
    obtain ⟨hne, hl⟩ := h l (.head _)
    cases ls with
    | nil => simpa using lines_last hne hl
    | cons m ls =>
      rw [List.intercalate_cons_cons, List.append_assoc, List.singleton_append, lines_break hl,
        ih fun k hk => h k (.tail _ hk)]

/-! Words. -/

def spaced : List Char → List (List Char) → List Char
  | w, [] => w
  | w, v :: vs => w ++ ' ' :: spaced v vs

theorem spaced_append (s w : List Char) (vs : List (List Char)) :
    spaced (s ++ ' ' :: w) vs = s ++ ' ' :: spaced w vs := by
  cases vs with
  | nil => rfl
  | cons v vs => simp [spaced]

theorem map_spaced {f : Char → Char} (hf : f ' ' = ' ') (w : List Char) (vs : List (List Char)) :
    (spaced w vs).map f = spaced (w.map f) (vs.map (List.map f)) := by
  induction vs generalizing w with
  | nil => rfl
  | cons v vs ih => simp [spaced, ih, hf]

def IsWord (w : List Char) : Prop := w ≠ [] ∧ ∀ c ∈ w, isPlain c

theorem pieces_last {separates : Char → Bool} {w : List Char} (h : ∀ c ∈ w, separates c = false) :
    pieces separates w = [w] := by
  induction w with
  | nil => rfl
  | cons c w ih =>
    rw [pieces, h c (.head _), ih fun d hd => h d (.tail _ hd)]
    rfl

theorem pieces_break {separates : Char → Bool} {w : List Char} (h : ∀ c ∈ w, separates c = false)
    {mark : Char} (hmark : separates mark) (rest : List Char) :
    pieces separates (w ++ mark :: rest) = w :: pieces separates rest := by
  induction w with
  | nil => rw [List.nil_append, pieces, if_pos hmark]
  | cons c w ih =>
    rw [List.cons_append, pieces, h c (.head _), ih fun d hd => h d (.tail _ hd)]
    rfl

theorem words_spaced {w : List Char} {vs : List (List Char)} (hw : IsWord w)
    (hvs : ∀ v ∈ vs, IsWord v) : words (spaced w vs) = w :: vs := by
  have hkeep : (w :: vs).filter (· ≠ []) = w :: vs := by
    apply List.filter_eq_self.mpr
    intro v hv
    rcases List.mem_cons.mp hv with rfl | hv
    · exact decide_eq_true hw.1
    · exact decide_eq_true (hvs v hv).1
  have hpieces : pieces separatesWords (spaced w vs) = w :: vs := by
    clear hkeep
    induction vs generalizing w with
    | nil => exact pieces_last fun c hc => (isPlain_spec (hw.2 c hc)).1
    | cons v vs ih =>
      rw [spaced, pieces_break (fun c hc => (isPlain_spec (hw.2 c hc)).1) (by decide),
        ih (hvs v (.head _)) fun u hu => hvs u (.tail _ hu)]
  rw [words, hpieces, hkeep]

theorem mem_spaced {w : List Char} {vs : List (List Char)} {c : Char} (h : c ∈ spaced w vs) :
    c = ' ' ∨ c ∈ w ∨ ∃ v ∈ vs, c ∈ v := by
  induction vs generalizing w with
  | nil => exact .inr (.inl h)
  | cons v vs ih =>
    rcases List.mem_append.mp h with h | h
    · exact .inr (.inl h)
    · rcases List.mem_cons.mp h with h | h
      · exact .inl h
      · rcases ih h with h | h | ⟨u, hu, h⟩
        · exact .inl h
        · exact .inr (.inr ⟨v, .head _, h⟩)
        · exact .inr (.inr ⟨u, .tail _ hu, h⟩)

theorem plain_or_space {w : List Char} {vs : List (List Char)} (hw : IsWord w)
    (hvs : ∀ v ∈ vs, IsWord v) {c : Char} (h : c ∈ spaced w vs) : c = ' ' ∨ isPlain c := by
  rcases mem_spaced h with h | h | ⟨v, hv, h⟩
  · exact .inl h
  · exact .inr (hw.2 c h)
  · exact .inr ((hvs v hv).2 c h)

theorem spaced_ends {w : List Char} {vs : List (List Char)} (hw : IsWord w)
    (hvs : ∀ v ∈ vs, IsWord v) : ∃ s c, spaced w vs = s ++ [c] ∧ isPlain c := by
  induction vs generalizing w with
  | nil =>
    refine ⟨w.dropLast, w.getLast hw.1, (List.dropLast_concat_getLast hw.1).symm, ?_⟩
    exact hw.2 _ (List.getLast_mem hw.1)
  | cons v vs ih =>
    obtain ⟨s, c, hs, hc⟩ := ih (hvs v (.head _)) fun u hu => hvs u (.tail _ hu)
    exact ⟨w ++ ' ' :: s, c, by rw [spaced, hs]; simp, hc⟩

theorem spaced_begins {w : List Char} (hw : IsWord w) (vs : List (List Char)) :
    ∃ c s, spaced w vs = c :: s ∧ isPlain c := by
  obtain ⟨c, w', rfl⟩ := List.exists_cons_of_ne_nil hw.1
  cases vs with
  | nil => exact ⟨c, w', rfl, hw.2 c (.head _)⟩
  | cons v vs => exact ⟨c, _, rfl, hw.2 c (.head _)⟩

theorem trim_spaced {w : List Char} {vs : List (List Char)} (hw : IsWord w)
    (hvs : ∀ v ∈ vs, IsWord v) : trim (spaced w vs) = spaced w vs := by
  obtain ⟨c, s, hbegin, hc⟩ := spaced_begins hw vs
  obtain ⟨t, d, hend, hd⟩ := spaced_ends hw hvs
  have hfront : (spaced w vs).dropWhile isBlank = spaced w vs := by
    rw [hbegin, List.dropWhile_cons_of_neg (by simp [(isPlain_spec hc).2.1])]
  rw [trim, hfront, hend, List.reverse_append, List.reverse_singleton, List.singleton_append,
    List.dropWhile_cons_of_neg (by simp [(isPlain_spec hd).2.1]), List.reverse_cons,
    List.reverse_reverse]

theorem cutAt_eq_none {mark : Char} {s : List Char} (h : mark ∉ s) : cutAt mark s = none := by
  induction s with
  | nil => rfl
  | cons c s ih =>
    have hc : c ≠ mark := fun he => h (he ▸ List.mem_cons_self ..)
    rw [cutAt, if_neg hc, ih fun hs => h (.tail _ hs)]
    rfl

theorem toList_signedNumeral (n : Int) :
    (signedNumeral n).toList = if n < 0 then '-' :: digits n.natAbs else digits n.natAbs := by
  unfold signedNumeral numeral
  split_ifs
  · simp [String.toList_append, String.toList_ofList]
  · exact String.toList_ofList

theorem integer?_signedNumeral (n : Int) : integer? (signedNumeral n).toList = some n := by
  rw [toList_signedNumeral]
  split_ifs with hn
  · have hval : -(n.natAbs : Int) = n := by omega
    rw [integer?, natural?_digits]
    exact congrArg some hval
  · have hval : (n.natAbs : Int) = n := by omega
    have hnat := natural?_digits n.natAbs
    have hdigit : ∀ c ∈ digits n.natAbs, c.isDigit := fun c hc => isDigit_of_mem_digits hc
    generalize digits n.natAbs = ds at hnat hdigit
    unfold integer?
    split
    · cases hdigit '-' (.head _)
    · cases hdigit '+' (.head _)
    · rw [hnat]
      exact congrArg some hval

theorem isWord_digits (n : Nat) : IsWord (digits n) :=
  ⟨digits_ne_nil n, fun _ hc => isPlain_of_isDigit (isDigit_of_mem_digits hc)⟩

theorem isWord_cons {c : Char} {w : List Char} (hc : isPlain c) (hw : IsWord w) :
    IsWord (c :: w) := by
  refine ⟨List.cons_ne_nil _ _, ?_⟩
  intro d hd
  rcases List.mem_cons.mp hd with rfl | hd
  · exact hc
  · exact hw.2 d hd

theorem isWord_signedNumeral (n : Int) : IsWord (signedNumeral n).toList := by
  rw [toList_signedNumeral]
  split_ifs
  · exact isWord_cons rfl (isWord_digits _)
  · exact isWord_digits _

theorem toLower_signedNumeral (n : Int) :
    (signedNumeral n).toList.map Char.toLower = (signedNumeral n).toList := by
  rw [toList_signedNumeral]
  split_ifs
  · rw [List.map_cons, toLower_digits]
    rfl
  · exact toLower_digits _

end Text

def Operand.word : Operand → List Char
  | immediate v => (Text.signedNumeral v.toInt).toList
  | register r => r.word.toList
  | channel id => 'c' :: 'h' :: Text.digits id.toNat
  | offset d => (Text.signedNumeral d.toInt).toList
  | label name => name.toList

namespace Operand
open Text (IsWord)

theorem text_lower {op : Operand} (h : op.encodable) :
    op.text.toList.map Char.toLower = op.word := by
  cases op with
  | immediate v => exact Text.toLower_signedNumeral v.toInt
  | offset d => exact Text.toLower_signedNumeral d.toInt
  | register r => cases r <;> rfl
  | channel id =>
    simp only [text, word, Text.numeral, String.toList_append, String.toList_ofList,
      List.map_append, Text.toLower_digits]
    rfl
  | label name => cases h

theorem isWord_word {op : Operand} (h : op.encodable) : IsWord op.word := by
  cases op with
  | immediate v => exact Text.isWord_signedNumeral v.toInt
  | offset d => exact Text.isWord_signedNumeral d.toInt
  | register r => cases r <;> exact ⟨by decide, List.all_eq_true.mp rfl⟩
  | channel id => exact Text.isWord_cons rfl (Text.isWord_cons rfl (Text.isWord_digits _))
  | label name => cases h

end Operand

namespace Text

theorem inLine_of_plain_toLower {c : Char} (h : isPlain c.toLower) :
    c.toNat < 128 ∧ InLine c := by
  constructor
  · unfold Char.toLower at h
    split at h
    · rename_i hupper
      exact Nat.lt_of_le_of_lt (UInt32.le_iff_toNat_le.mp hupper.2) (by decide)
    · exact isPlain_ascii h
  · constructor
    · rintro rfl
      cases h
    · rintro rfl
      cases h

end Text

theorem Opcode.name_lower (op : Opcode) : op.name.toList.map Char.toLower = op.word.toList := by
  cases op <;> rfl

theorem Opcode.isWord_word (op : Opcode) : Text.IsWord op.word.toList := by
  cases op <;> exact ⟨by decide, List.all_eq_true.mp rfl⟩

namespace Instruction
open Text (spaced)

def words (i : Instruction) : List (List Char) := i.operands.map Operand.word

theorem toList_text (i : Instruction) :
    i.text.toList = spaced i.opcode.name.toList (i.operands.map fun op => op.text.toList) := by
  have hfold : ∀ (ops : List Operand) (s : String),
      (ops.foldl (fun s op => s ++ " " ++ op.text) s).toList =
        spaced s.toList (ops.map fun op => op.text.toList) := by
    intro ops
    induction ops with
    | nil => exact fun s => rfl
    | cons op ops ih =>
      intro s
      have hstart : (s ++ " " ++ op.text).toList = s.toList ++ ' ' :: op.text.toList := by simp
      rw [List.foldl_cons, ih, hstart, Text.spaced_append]
      rfl
  exact hfold i.operands i.opcode.name

variable {i : Instruction}

theorem text_lower (h : ∀ op ∈ i.operands, op.encodable) :
    i.text.toList.map Char.toLower = spaced i.opcode.word.toList i.words := by
  rw [toList_text, Text.map_spaced rfl, Opcode.name_lower, List.map_map]
  congr 1
  exact List.map_congr_left fun op hop => Operand.text_lower (h op hop)

theorem isWord_of_mem_words (h : ∀ op ∈ i.operands, op.encodable) :
    ∀ w ∈ i.words, Text.IsWord w := by
  intro w hw
  obtain ⟨op, hop, rfl⟩ := List.mem_map.mp hw
  exact Operand.isWord_word (h op hop)

theorem text_chars (h : ∀ op ∈ i.operands, op.encodable) :
    ∀ c ∈ i.text.toList, c.toNat < 128 ∧ Text.InLine c := by
  intro c hc
  rw [toList_text] at hc
  rcases Text.mem_spaced hc with rfl | hname | ⟨w, hw, hword⟩
  · exact ⟨by decide, by decide, by decide⟩
  · apply Text.inLine_of_plain_toLower
    apply (Opcode.isWord_word i.opcode).2
    rw [← Opcode.name_lower]
    exact List.mem_map_of_mem hname
  · obtain ⟨op, hop, rfl⟩ := List.mem_map.mp hw
    apply Text.inLine_of_plain_toLower
    apply (Operand.isWord_word (h op hop)).2
    rw [← Operand.text_lower (h op hop)]
    exact List.mem_map_of_mem hword

end Instruction

namespace SourceLine
open Text (spaced)

theorem ofWord?_register (r : Register) : Register.ofWord? r.word.toList = some r := by
  cases r <;> rfl

theorem integer?_register (r : Register) : Text.integer? r.word.toList = none := by
  cases r <;> rfl

theorem ofWord?_channel (ds : List Char) : Register.ofWord? ('c' :: 'h' :: ds) = none := by
  simp [Register.ofWord?, Register.all, Register.word]

theorem integer?_channel (ds : List Char) : Text.integer? ('c' :: 'h' :: ds) = none := by
  simp [Text.integer?, Text.natural?]

theorem channelOfWord?_digits {id : UInt32} (h : id ≠ 0) :
    channelOfWord? ('c' :: 'h' :: Text.digits id.toNat) = some id := by
  have hid : id.toNat ≠ 0 := fun hz => h (UInt32.toNat_inj.mp hz)
  rw [channelOfWord?, Text.natural?_digits]
  simp only [if_neg hid, Text.uint32?_toNat]

theorem operand_word {op : Operand} {kind : OperandKind} (he : op.encodable) (hf : op.fits kind)
    (position : Nat) : operand position kind op.word = .ok op := by
  cases op with
  | immediate v =>
    simp only [operand, Operand.word, Text.integer?_signedNumeral, Option.bind_some,
      Text.int64?_toInt]
    cases kind <;> first | rfl | cases hf
  | offset d =>
    have hd := Text.int64?_of_int32 d
    have hback : literal position (Int64.ofInt d.toInt) .label = .ok (.offset d) := by
      simp only [literal, Text.toInt_of_int64? hd, Text.int32?_toInt]
    simp only [operand, Operand.word, Text.integer?_signedNumeral, Option.bind_some, hd]
    cases kind <;> first | exact hback | cases hf
  | register r =>
    simp only [operand, Operand.word, integer?_register, Option.bind_none]
    cases kind with
    | register =>
      simp only [writable, ofWord?_register]
      exact if_pos hf
    | number =>
      simp only [readable, ofWord?_register]
      exact if_pos hf
    | label =>
      simp only [readable, ofWord?_register]
      exact if_pos hf
    | channel => cases hf
  | channel id =>
    have hid : id ≠ 0 := by simpa [Operand.encodable] using he
    simp only [operand, Operand.word, integer?_channel, Option.bind_none]
    cases kind with
    | register => simp only [writable, ofWord?_channel, channelOfWord?_digits hid]
    | number => simp only [readable, ofWord?_channel, channelOfWord?_digits hid]
    | label => simp only [readable, ofWord?_channel, channelOfWord?_digits hid]
    | channel => simp only [channelOfWord?_digits hid]
  | label name => cases he

theorem operands_words {kinds : List OperandKind} {ops : List Operand}
    (hf : Instruction.operandsFit kinds ops) (he : ∀ op ∈ ops, op.encodable) (position : Nat) :
    operands position kinds (ops.map Operand.word) = .ok ops ∧ ops.length = kinds.length := by
  induction ops generalizing kinds position with
  | nil =>
    cases kinds with
    | nil => exact ⟨rfl, rfl⟩
    | cons kind kinds => cases hf
  | cons op ops ih =>
    cases kinds with
    | nil => cases hf
    | cons kind kinds =>
      obtain ⟨hfit, hfits⟩ := Bool.and_eq_true_iff.mp hf
      obtain ⟨hrest, hlen⟩ := ih hfits (fun o ho => he o (.tail _ ho)) (position + 1)
      refine ⟨?_, congrArg (· + 1) hlen⟩
      rw [List.map_cons, operands, operand_word (he op (.head _)) hfit, hrest]
      rfl

theorem ofWord?_opcode (op : Opcode) :
    Opcode.ofWord? op.word.toList = some op ∧ op.word.toList ≠ "nop".toList := by
  cases op <;> exact ⟨by decide, by decide⟩

theorem read_text {length : Nat} {i : Instruction} (h : i.WellFormed length) (line : Nat) :
    read line i.text.toList = ⟨none, .ok (some { i with line := line })⟩ := by
  have hword := Opcode.isWord_word i.opcode
  have hwords := Instruction.isWord_of_mem_words h.encodable
  have hlow : Text.lowercase i.text.toList = spaced i.opcode.word.toList i.words := by
    rw [Text.lowercase_ascii fun c hc => (Instruction.text_chars h.encodable c hc).1,
      Instruction.text_lower h.encodable]
  -- there is neither a comment nor a label to cut off, as no word has a mark of one
  have hcode : ∀ c ∈ spaced i.opcode.word.toList i.words, (!startsComment c) = true := by
    intro c hc
    rcases Text.plain_or_space hword hwords hc with rfl | hc
    · rfl
    · simp [(Text.isPlain_spec hc).2.2.1]
  have hcomment : (spaced i.opcode.word.toList i.words).takeWhile (fun c => !startsComment c) =
      spaced i.opcode.word.toList i.words := by
    have htake := @List.takeWhile_append_of_pos _ _ _ [] hcode
    rwa [List.takeWhile_nil, List.append_nil] at htake
  have hcolon : ':' ∉ spaced i.opcode.word.toList i.words := by
    intro hc
    rcases Text.plain_or_space hword hwords hc with hc | hc
    · cases hc
    · exact (Text.isPlain_spec hc).2.2.2.1 rfl
  have hne : spaced i.opcode.word.toList i.words ≠ [] := by
    obtain ⟨c, s, hs, -⟩ := Text.spaced_begins hword i.words
    rw [hs]
    exact List.cons_ne_nil _ _
  have hinstruction : instruction line (spaced i.opcode.word.toList i.words) =
      .ok { i with line := line } := by
    obtain ⟨hops, hlen⟩ := operands_words h.conforms h.encodable 1
    obtain ⟨hopcode, hnop⟩ := ofWord?_opcode i.opcode
    have harity : i.words.length = i.opcode.arity := by
      rw [Instruction.words, List.length_map, hlen, Opcode.arity]
    simp only [instruction, Text.words_spaced hword hwords, hnop, false_and, if_false, hopcode,
      harity, if_true]
    rw [Instruction.words, hops]
    rfl
  simp only [read, hlow, hcomment, Text.trim_spaced hword hwords, splitLabel,
    Text.cutAt_eq_none hcolon, if_neg hne, hinstruction]
  rfl

end SourceLine

/-- A length is read as a signed word, which is the length itself while it is short enough. -/
theorem bmod_length {length : Nat} (hlen : 2 * length < UInt64.size) :
    Int.bmod length UInt64.size = length := by
  apply Int.bmod_eq_of_le <;> omega

theorem wrapDistance_inside {length : Nat} (hlen : 2 * length < UInt64.size) {d : Int32}
    (hd : 0 ≤ d.toInt ∧ d.toInt < length) : wrapDistance length d.toInt = d := by
  have hpos : length ≠ 0 := by omega
  rw [wrapDistance, if_neg hpos, bmod_length hlen, Int.emod_eq_of_lt hd.1 hd.2, Int32.ofInt_toInt]

theorem Instruction.target?_eq_some {i : Instruction} {target : Operand}
    (h : i.target? = some target) :
    i.opcode.isJump ∧ ∃ first, i.operands = first ++ [target] := by
  unfold Instruction.target? at h
  split_ifs at h with hjump
  exact ⟨hjump, List.getLast?_eq_some_iff.mp h⟩

theorem Instruction.withTarget_target {i : Instruction} {target : Operand}
    (h : i.target? = some target) : i.withTarget target = i := by
  obtain ⟨-, ops, hops⟩ := target?_eq_some h
  simp only [Instruction.withTarget, hops, List.dropLast_concat]
  rw [← hops]

theorem Instruction.resolve_wellFormed {length : Nat} {i : Instruction} (h : i.WellFormed length)
    (hlen : 2 * length < UInt64.size) (labels : Table String Nat) (index : Nat) :
    i.resolve labels length index = (i, none) := by
  unfold Instruction.resolve
  split
  · rfl
  · rename_i target htarget
    have hmem : target ∈ i.operands := by
      unfold Instruction.target? at htarget
      split_ifs at htarget
      exact List.mem_of_getLast? htarget
    have hsame : target.resolve labels length index = .ok target := by
      cases target with
      | offset d =>
        simp only [Operand.resolve, wrapDistance_inside hlen (h.inside d htarget)]
      | label name => cases h.encodable _ hmem
      | immediate v => rfl
      | register r => rfl
      | channel id => rfl
    simp only [hsame, Instruction.withTarget_target htarget]

namespace Program

theorem resolve_wellFormed {p : Program} (h : p.WellFormed)
    (hlen : 2 * List.length p < UInt64.size) :
    p.resolve .empty = ⟨p, .empty, []⟩ := by
  have hone : ∀ e ∈ p.zipIdx,
      e.1.resolve (p.labelIndices .empty) p.length e.2 = (e.1, none) := by
    rintro ⟨i, index⟩ he
    exact Instruction.resolve_wellFormed (h i (List.fst_mem_of_mem_zipIdx he)) hlen _ index
  have hmap := List.map_congr_left hone
  simp only [resolve, hmap, List.map_map, List.filterMap_map]
  simp [Function.comp_def, List.zipIdx_map_fst]
  rfl

theorem read_listing {length line : Nat} {p : Program} (h : ∀ i ∈ p, i.WellFormed length) :
    ((p.map fun i => i.text.toList).zipIdx line).map (fun l => SourceLine.read l.2 l.1) =
      (p.linedFrom line).map fun i => ⟨none, .ok (some i)⟩ := by
  induction p generalizing line with
  | nil => rfl
  | cons i p ih =>
    simp only [List.map_cons, List.zipIdx_cons, linedFrom]
    rw [SourceLine.read_text (h i (.head _)), ih fun j hj => h j (.tail _ hj)]

theorem lines_listing {p : Program} (h : p.WellFormed) :
    Text.lines p.listing.toList = p.map fun i => i.text.toList := by
  rw [listing, Text.joinLines, String.toList_intercalate, List.map_map]
  apply Text.lines_intercalate
  intro l hl
  obtain ⟨i, hi, rfl⟩ := List.mem_map.mp hl
  have hencodable := (h i hi).encodable
  refine ⟨?_, fun c hc => (Instruction.text_chars hencodable c hc).2⟩
  intro hnil
  have hlow := Instruction.text_lower hencodable
  obtain ⟨c, s, hs, -⟩ := Text.spaced_begins (Opcode.isWord_word i.opcode) i.words
  rw [hs, show i.text.toList = [] from hnil] at hlow
  cases hlow

end Program

namespace Assembly

theorem instructions_plain (p : Program) :
    instructions (p.map fun i => ⟨none, .ok (some i)⟩) = p := by
  rw [instructions, List.filterMap_map]
  exact List.filterMap_some

theorem labelLines_plain (p : Program) (n : Nat) (found : Table String Nat) :
    labelLines n (p.map fun i => ⟨none, .ok (some i)⟩) found = found := by
  induction p generalizing n with
  | nil => rfl
  | cons i p ih => exact ih (n + 1)

theorem errorsFrom_plain (p : Program) (n : Nat) (known : List String) :
    errorsFrom n (p.map fun i => ⟨none, .ok (some i)⟩) known = [] := by
  induction p generalizing n known with
  | nil => rfl
  | cons i p ih => exact ih (n + 1) known

end Assembly

theorem assemble_listing {p : Program} (h : p.WellFormed) (hlen : 2 * List.length p < UInt64.size)
    (capacity : Nat) :
    assemble p.listing capacity =
      { program := p.relined
        labels := .empty
        lineCount := List.length p
        error := if capacity < List.length p then some ⟨capacity - 1, .tooManyLines capacity⟩
          else none } := by
  have hresolve : p.relined.resolve .empty = ⟨p.relined, .empty, []⟩ := by
    apply Program.resolve_wellFormed (h.linedFrom 0)
    rwa [Program.length_linedFrom]
  simp only [assemble, Program.lines_listing h, Program.read_listing h,
    Assembly.instructions_plain, Assembly.labelLines_plain, Assembly.errorsFrom_plain,
    List.length_map]
  rw [← Program.relined, hresolve]
  rfl

namespace Program

/-- Assembling undoes listing: the listing of a well-formed program assembles to its instructions,
each on the line of its own index, with no labels, and the one thing that can be wrong with it is its
length. The bound is that of a signed word, which the length of a list in memory is read as. -/
theorem listing_reassembles (p : Program) (h : p.WellFormed)
    (hlen : 2 * List.length p < UInt64.size) (capacity : Nat) :
    (∀ k : Nat, (assemble p.listing capacity).program[k]? =
      p[k]?.map fun i => { i with line := k }) ∧
    (assemble p.listing capacity).labels = .empty ∧
    (assemble p.listing capacity).lineCount = List.length p ∧
    (List.length p ≤ capacity → (assemble p.listing capacity).error = none) ∧
    (capacity < List.length p → ∃ e, (assemble p.listing capacity).error = some e ∧
      e.line = capacity - 1 ∧
      e.message = "Too many lines (max " ++ Text.numeral capacity ++ ")") := by
  rw [assemble_listing h hlen capacity]
  refine ⟨?_, rfl, rfl, ?_, ?_⟩
  · intro k
    have hline := getElem?_linedFrom p 0 k
    rwa [Nat.zero_add] at hline
  · intro hfits
    exact if_neg (Nat.not_lt.mpr hfits)
  · intro hover
    exact ⟨⟨capacity - 1, .tooManyLines capacity⟩, if_pos hover, rfl, rfl⟩

def extremes : Program :=
  [⟨.mov, [.channel 4294967295, .immediate Int64.minValue], 7⟩,
    ⟨.mov, [.register .acc, .immediate Int64.maxValue], 7⟩,
    ⟨.jez, [.channel 1, .offset 0], 2⟩, ⟨.jmp, [.offset 3], 0⟩]

theorem listing_reassembles_extremes :
    extremes.WellFormed ∧ 2 * List.length extremes < UInt64.size ∧
      (∀ k : Nat, (assemble extremes.listing 4).program[k]? =
        extremes[k]?.map fun i => { i with line := k }) ∧
      (assemble extremes.listing 4).error = none ∧
      ∃ e, (assemble extremes.listing 3).error = some e ∧ e.line = 2 ∧
        e.message = "Too many lines (max " ++ Text.numeral 3 ++ ")" := by
  have hwf : extremes.WellFormed := by
    intro i hi
    refine ⟨?_, ?_, ?_⟩
    · revert i
      decide
    · revert i
      decide
    · intro d hd
      have htarget : ∀ i ∈ extremes, i.target? = none ∨ i.target? = some (.offset 0) ∨
          i.target? = some (.offset 3) := by decide
      rcases htarget i hi with ht | ht | ht
      · rw [ht] at hd
        cases hd
      · rw [ht] at hd
        cases hd
        decide
      · rw [ht] at hd
        cases hd
        decide
  have hlen : 2 * List.length extremes < UInt64.size := by decide
  obtain ⟨hprogram, -, -, hfits, -⟩ := listing_reassembles extremes hwf hlen 4
  obtain ⟨-, -, -, -, hover⟩ := listing_reassembles extremes hwf hlen 3
  exact ⟨hwf, hlen, hprogram, hfits (by decide), hover (by decide)⟩

end Program
end Lockstep
