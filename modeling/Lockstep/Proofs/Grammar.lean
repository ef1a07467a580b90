import Lockstep.Proofs.Listing

/-!
The language of program texts, said without the functions that read it. A line divides into a label
and a rest; the rest, where it is not empty, reads as one instruction or has one fault. `Spells` and
`Misspells` give the operands that a word may stand for and the faults it may have, `Reads` and
`Misreads` the instructions and faults of a line. Reading a line finds exactly these.
-/
namespace Lockstep

/-- The results that a computation may give are those of `P`, and its errors are those of `Q`. -/
structure Settles {ε α : Type} (x : Except ε α) (P : α → Prop) (Q : ε → Prop) : Prop where
  ok : ∀ a, x = .ok a ↔ P a
  error : ∀ e, x = .error e ↔ Q e

section Settles
variable {ε α : Type} {x : Except ε α} {P : α → Prop} {Q : ε → Prop}

theorem Settles.total (h : Settles x P Q) : (∃ a, P a) ∨ ∃ e, Q e := by
  cases x with
  | ok a => exact .inl ⟨a, (h.ok a).mp rfl⟩
  | error e => exact .inr ⟨e, (h.error e).mp rfl⟩

theorem Settles.of_total (htotal : (∃ a, P a) ∨ ∃ e, Q e) (hok : ∀ a, P a → x = .ok a)
    (herror : ∀ e, Q e → x = .error e) : Settles x P Q := by
  rcases htotal with ⟨a, ha⟩ | ⟨e, he⟩
  · have hx := hok a ha
    refine ⟨fun b => ⟨fun hb => ?_, hok b⟩, fun e => ⟨fun he => ?_, herror e⟩⟩
    · cases hx.symm.trans hb
      exact ha
    · cases hx.symm.trans he
  · have hx := herror e he
    refine ⟨fun b => ⟨fun hb => ?_, hok b⟩, fun d => ⟨fun hd => ?_, herror d⟩⟩
    · cases hx.symm.trans hb
    · cases hx.symm.trans hd
      exact he

end Settles

namespace Text

/-- The words of a text: runs that hold no separator and end where the text ends or at one. -/
inductive Worded : List Char → List (List Char) → Prop
  | nil : Worded [] []
  | separator {c : Char} {s : List Char} {ws : List (List Char)} (hc : separatesWords c)
      (h : Worded s ws) : Worded (c :: s) ws
  | word {w s : List Char} {ws : List (List Char)} (hne : w ≠ [])
      (hw : ∀ c ∈ w, separatesWords c = false) (hs : ∀ c ∈ s.head?, separatesWords c)
      (h : Worded s ws) : Worded (w ++ s) (w :: ws)

theorem words_separator {c : Char} (hc : separatesWords c) (s : List Char) :
    words (c :: s) = words s := by
  rw [words, words, pieces, if_pos hc, List.filter_cons_of_neg (by decide)]

theorem words_word {w s : List Char} (hne : w ≠ []) (hw : ∀ c ∈ w, separatesWords c = false)
    (hs : ∀ c ∈ s.head?, separatesWords c) : words (w ++ s) = w :: words s := by
  cases s with
  | nil =>
    rw [List.append_nil, words, pieces_last hw, List.filter_cons_of_pos (by simpa using hne)]
    rfl
  | cons c s =>
    have hc := hs c rfl
    rw [words_separator hc, words, pieces_break hw hc, List.filter_cons_of_pos (by simpa using hne)]
    rfl

theorem worded_words (s : List Char) : Worded s (words s) := by
  -- a word may be long, so that the induction is on the length of what is left
  induction hn : s.length using Nat.strongRecOn generalizing s with
  | ind n ih =>
    cases s with
    | nil => exact .nil
    | cons c s =>
      by_cases hc : separatesWords c
      · rw [words_separator hc]
        refine .separator hc (ih s.length ?_ s rfl)
        rw [← hn]
        exact Nat.lt_add_one _
      · have hcut := List.takeWhile_append_dropWhile (p := fun c => !separatesWords c) (l := s)
        have hw : ∀ d ∈ c :: s.takeWhile fun c => !separatesWords c, separatesWords d = false := by
          intro d hd
          rcases List.mem_cons.mp hd with rfl | hd
          · simpa using hc
          · simpa using List.all_eq_true.mp List.all_takeWhile d hd
        have hs : ∀ d ∈ (s.dropWhile fun c => !separatesWords c).head?, separatesWords d := by
          intro d hd
          have hstop := List.head?_dropWhile_not (fun c => !separatesWords c) s
          rw [Option.mem_def.mp hd] at hstop
          simpa using hstop
        have hlt : (s.dropWhile fun c => !separatesWords c).length < n := by
          have hle := (List.dropWhile_sublist (fun c => !separatesWords c) (l := s)).length_le
          rw [← hn, List.length_cons]
          omega
        rw [← hcut, ← List.cons_append, words_word (List.cons_ne_nil _ _) hw hs]
        exact .word (List.cons_ne_nil _ _) hw hs (ih _ hlt _ rfl)

theorem worded_iff {s : List Char} {ws : List (List Char)} : Worded s ws ↔ words s = ws := by
  constructor
  · intro h
    induction h with
    | nil => rfl
    | separator hc h ih => rw [words_separator hc, ih]
    | word hne hw hs h ih => rw [words_word hne hw hs, ih]
  · intro h
    exact h ▸ worded_words s

inductive Decimal : List Char → Int → Prop
  | plain {ds : List Char} (hne : ds ≠ []) (hd : ∀ c ∈ ds, c.isDigit) :
      Decimal ds (Nat.ofDigitChars 10 ds 0)
  | plus {ds : List Char} (hne : ds ≠ []) (hd : ∀ c ∈ ds, c.isDigit) :
      Decimal ('+' :: ds) (Nat.ofDigitChars 10 ds 0)
  | minus {ds : List Char} (hne : ds ≠ []) (hd : ∀ c ∈ ds, c.isDigit) :
      Decimal ('-' :: ds) (-(Nat.ofDigitChars 10 ds 0 : Int))

theorem natural?_eq_some_iff {s : List Char} {n : Nat} :
    natural? s = some n ↔ s ≠ [] ∧ (∀ c ∈ s, c.isDigit) ∧ Nat.ofDigitChars 10 s 0 = n := by
  unfold natural?
  rw [Option.ite_none_right_eq_some, List.all_eq_true, Option.some.injEq, and_assoc]

theorem signed_eq_some {s : List Char} {sign : Int → Int} {n : Int}
    (h : ((natural? s).bind fun m => some (m : Int)).map sign = some n) :
    s ≠ [] ∧ (∀ c ∈ s, c.isDigit) ∧ sign (Nat.ofDigitChars 10 s 0 : Nat) = n := by
  obtain ⟨m, hm, hn⟩ := Option.map_eq_some_iff.mp h
  obtain ⟨k, hk, hm⟩ := Option.bind_eq_some_iff.mp hm
  obtain ⟨hne, hd, rfl⟩ := natural?_eq_some_iff.mp hk
  rw [← Option.some.inj hm] at hn
  exact ⟨hne, hd, hn⟩

theorem integer?_plain {ds : List Char} (hne : ds ≠ []) (hd : ∀ c ∈ ds, c.isDigit) :
    integer? ds = some (Nat.ofDigitChars 10 ds 0 : Int) := by
  have hn := natural?_eq_some_iff.mpr ⟨hne, hd, rfl⟩
  unfold integer?
  split
  · exact absurd (hd '-' (.head _)) (by decide)
  · exact absurd (hd '+' (.head _)) (by decide)
  · rw [hn]
    rfl

theorem decimal_iff {w : List Char} {n : Int} : Decimal w n ↔ integer? w = some n := by
  constructor
  · intro h
    cases h with
    | plain hne hd => exact integer?_plain hne hd
    | plus hne hd => rw [integer?, natural?_eq_some_iff.mpr ⟨hne, hd, rfl⟩]; rfl
    | minus hne hd => rw [integer?, natural?_eq_some_iff.mpr ⟨hne, hd, rfl⟩]; rfl
  · intro h
    unfold integer? at h
    split at h
    · obtain ⟨hne, hd, rfl⟩ := signed_eq_some h
      exact .minus hne hd
    · obtain ⟨hne, hd, rfl⟩ := signed_eq_some h
      exact .plus hne hd
    · obtain ⟨hne, hd, rfl⟩ := signed_eq_some h
      exact .plain hne hd

theorem decimal_int64_iff {w : List Char} {v : Int64} :
    Decimal w v.toInt ↔ (integer? w).bind int64? = some v := by
  rw [decimal_iff]
  constructor
  · intro h
    rw [h, Option.bind_some, int64?_toInt]
  · intro h
    obtain ⟨n, hn, hv⟩ := Option.bind_eq_some_iff.mp h
    rw [hn, toInt_of_int64? hv]

theorem cutAt_eq_some_iff {mark : Char} {s before after : List Char} :
    cutAt mark s = some (before, after) ↔ s = before ++ mark :: after ∧ mark ∉ before := by
  constructor
  · intro h
    induction s generalizing before with
    | nil => cases h
    | cons c s ih =>
      rw [cutAt] at h
      split_ifs at h with hc
      · cases h
        exact ⟨by rw [hc]; rfl, List.not_mem_nil⟩
      · obtain ⟨halves, hcut, heq⟩ := Option.map_eq_some_iff.mp h
        cases heq
        obtain ⟨hs, hmark⟩ := ih hcut
        refine ⟨congrArg (c :: ·) hs, ?_⟩
        intro hmem
        rcases List.mem_cons.mp hmem with he | hmem
        · exact hc he.symm
        · exact hmark hmem
  · intro h
    obtain ⟨rfl, hmark⟩ := h
    induction before with
    | nil => exact if_pos rfl
    | cons c before ih =>
      have hc : c ≠ mark := fun he => hmark (he ▸ List.mem_cons_self ..)
      rw [List.cons_append, cutAt, if_neg hc, ih fun hmem => hmark (.tail _ hmem)]
      rfl

end Text

inductive ChannelWord : List Char → UInt32 → Prop
  | mk {ds : List Char} {id : UInt32} (hne : ds ≠ []) (hd : ∀ c ∈ ds, c.isDigit)
      (hid : Nat.ofDigitChars 10 ds 0 = id.toNat) (hpos : id ≠ 0) :
      ChannelWord ('c' :: 'h' :: ds) id

theorem channelWord_iff {w : List Char} {id : UInt32} :
    ChannelWord w id ↔ channelOfWord? w = some id := by
  constructor
  · intro h
    cases h with
    | mk hne hd hid hpos =>
      have hzero : id.toNat ≠ 0 := fun hz => hpos (UInt32.toNat_inj.mp hz)
      rw [channelOfWord?, Text.natural?_eq_some_iff.mpr ⟨hne, hd, hid⟩]
      simp only [if_neg hzero, Text.uint32?_toNat]
  · intro h
    unfold channelOfWord? at h
    split at h
    · split at h
      · rename_i hn
        split_ifs at h with hzero
        obtain ⟨hne, hd, hvalue⟩ := Text.natural?_eq_some_iff.mp hn
        have hid := Text.toNat_of_uint32? h
        refine .mk hne hd (hvalue.trans hid.symm) fun hid0 => hzero ?_
        rw [← hid, hid0]
        rfl
      · cases h
    · cases h

namespace SourceLine

theorem register_ofWord?_iff {w : List Char} {r : Register} :
    Register.ofWord? w = some r ↔ w = r.word.toList := by
  constructor
  · intro h
    have hword := List.find?_some h
    exact (of_decide_eq_true hword).symm
  · intro h
    rw [h, ofWord?_register]

theorem opcode_ofWord?_iff {w : List Char} {op : Opcode} :
    Opcode.ofWord? w = some op ↔ w = op.word.toList := by
  constructor
  · intro h
    have hword := List.find?_some h
    exact (of_decide_eq_true hword).symm
  · intro h
    rw [h, (ofWord?_opcode op).1]

/-! Words in the place of an operand. -/

/-- The operand that a word stands for where one of the given kind is asked for. -/
inductive Spells : OperandKind → List Char → Operand → Prop
  | literal {w : List Char} {v : Int64} (h : Text.Decimal w v.toInt) :
      Spells .number w (.immediate v)
  | distance {w : List Char} {d : Int32} (h : Text.Decimal w d.toInt) :
      Spells .label w (.offset d)
  | source {kind : OperandKind} {r : Register} (hkind : kind ∈ [.number, .label])
      (h : r.readable) : Spells kind r.word.toList (.register r)
  | destination {r : Register} (h : r.writable) :
      Spells .register r.word.toList (.register r)
  | channel {kind : OperandKind} {w : List Char} {id : UInt32} (h : ChannelWord w id) :
      Spells kind w (.channel id)
  | label {w : List Char} (h : isName w) (hr : ∀ r : Register, w ≠ r.word.toList)
      (hc : ∀ id, ¬ChannelWord w id) : Spells .label w (.label (String.ofList w))

structure Unlisted (w : List Char) : Prop where
  number : ∀ v : Int64, ¬Text.Decimal w v.toInt
  register : ∀ r : Register, w ≠ r.word.toList
  channel : ∀ id, ¬ChannelWord w id

/-- What is wrong with a word in the given place, where one of the given kind is asked for. -/
inductive Misspells (position : Nat) : OperandKind → List Char → AssemblyFault → Prop
  | number {kind : OperandKind} {w : List Char} {v : Int64} (hkind : kind ∈ [.register, .channel])
      (h : Text.Decimal w v.toInt) : Misspells position kind w (.operandKind position kind)
  | far {w : List Char} {v : Int64} (h : Text.Decimal w v.toInt)
      (hfar : ∀ d : Int32, d.toInt ≠ v.toInt) : Misspells position .label w (.offsetOutOfRange v)
  | unreadable {kind : OperandKind} {r : Register} (hkind : kind ∈ [.number, .label])
      (h : r.readable = false) : Misspells position kind r.word.toList (.cannotRead r)
  | unwritable {r : Register} (h : r.writable = false) :
      Misspells position .register r.word.toList (.cannotWrite r)
  | channel {w : List Char} (hn : ∀ v : Int64, ¬Text.Decimal w v.toInt)
      (hc : ∀ id, ¬ChannelWord w id) :
      Misspells position .channel w (.operandKind position .channel)
  | operand {kind : OperandKind} {w : List Char} (hkind : kind ∈ [.register, .number])
      (h : Unlisted w) : Misspells position kind w (.invalidOperand (String.ofList w))
  | label {w : List Char} (h : Unlisted w) (hname : isName w = false) :
      Misspells position .label w (.invalidLabel (String.ofList w))

/-! The four sorts of words, as `operand` tells them apart. -/

theorem operand_number {w : List Char} {v : Int64} (h : Text.Decimal w v.toInt) (position : Nat)
    (kind : OperandKind) : operand position kind w = literal position v kind := by
  simp only [operand, Text.decimal_int64_iff.mp h]

theorem number_eq_none {w : List Char} (h : ∀ v : Int64, ¬Text.Decimal w v.toInt) :
    (Text.integer? w).bind Text.int64? = none :=
  Option.eq_none_iff_forall_ne_some.mpr fun v hv => h v (Text.decimal_int64_iff.mpr hv)

theorem register_eq_none {w : List Char} (h : ∀ r : Register, w ≠ r.word.toList) :
    Register.ofWord? w = none :=
  Option.eq_none_iff_forall_ne_some.mpr fun r hr => h r (register_ofWord?_iff.mp hr)

theorem channel_eq_none {w : List Char} (h : ∀ id, ¬ChannelWord w id) :
    channelOfWord? w = none :=
  Option.eq_none_iff_forall_ne_some.mpr fun id hid => h id (channelWord_iff.mpr hid)

theorem integer?_name {w : List Char} (h : isName w) : Text.integer? w = none := by
  cases w with
  | nil => cases h
  | cons c w =>
    have hc : c.isLower := (Bool.and_eq_true_iff.mp h).1
    have hletter : 'a'.val ≤ c.val := of_decide_eq_true (Bool.and_eq_true_iff.mp hc).1
    have hdigit : c.isDigit = false := by
      simp only [Char.isDigit, Bool.and_eq_false_iff, decide_eq_false_iff_not]
      right
      intro hle
      exact absurd (UInt32.le_trans hletter hle) (by decide)
    have hnone : Text.natural? (c :: w) = none := by simp [Text.natural?, hdigit]
    unfold Text.integer?
    split
    · rename_i heq
      cases heq
      cases hc
    · rename_i heq
      cases heq
      cases hc
    · rw [hnone]
      rfl

theorem operand_of_spells {kind : OperandKind} {w : List Char} {op : Operand}
    (h : Spells kind w op) (position : Nat) : operand position kind w = .ok op := by
  cases h with
  | literal h => rw [operand_number h, literal]
  | @distance _ d h =>
    have hd := Text.int64?_of_int32 d
    rw [← Text.toInt_of_int64? hd] at h
    rw [operand_number h, literal, Text.toInt_of_int64? hd, Text.int32?_toInt]
  | source hkind h =>
    simp only [List.mem_cons, List.not_mem_nil, or_false] at hkind
    rcases hkind with rfl | rfl
    · simp [operand, readable, integer?_register, ofWord?_register, h]
    · simp [operand, readable, integer?_register, ofWord?_register, h]
  | destination h => simp [operand, writable, integer?_register, ofWord?_register, h]
  | channel h =>
    have hid := channelWord_iff.mp h
    cases h with
    | mk =>
      cases kind <;>
        simp only [operand, readable, writable, integer?_channel, ofWord?_channel, Option.bind_none,
          hid]
  | label h hr hc =>
    simp [operand, readable, integer?_name h, register_eq_none hr, channel_eq_none hc, h]

theorem operand_of_misspells {position : Nat} {kind : OperandKind} {w : List Char}
    {fault : AssemblyFault} (h : Misspells position kind w fault) :
    operand position kind w = .error fault := by
  cases h with
  | number hkind h =>
    simp only [List.mem_cons, List.not_mem_nil, or_false] at hkind
    rcases hkind with rfl | rfl
    · exact operand_number h position _
    · exact operand_number h position _
  | @far _ v h hfar =>
    have hnone : Text.int32? v.toInt = none :=
      Option.eq_none_iff_forall_ne_some.mpr fun d hd => hfar d (Text.toInt_of_int32? hd)
    rw [operand_number h, literal, hnone]
  | unreadable hkind h =>
    simp only [List.mem_cons, List.not_mem_nil, or_false] at hkind
    rcases hkind with rfl | rfl
    · simp [operand, readable, integer?_register, ofWord?_register, h]
    · simp [operand, readable, integer?_register, ofWord?_register, h]
  | unwritable h => simp [operand, writable, integer?_register, ofWord?_register, h]
  | channel hn hc => simp only [operand, number_eq_none hn, channel_eq_none hc]
  | operand hkind h =>
    simp only [List.mem_cons, List.not_mem_nil, or_false] at hkind
    rcases hkind with rfl | rfl
    · simp only [operand, writable, number_eq_none h.number, register_eq_none h.register,
        channel_eq_none h.channel]
    · simp only [operand, readable, number_eq_none h.number, register_eq_none h.register,
        channel_eq_none h.channel]
  | label h hname =>
    simp [operand, readable, number_eq_none h.number, register_eq_none h.register,
      channel_eq_none h.channel, hname]

/-- Every word in every place either spells an operand or is at fault. -/
theorem spells_or_misspells (position : Nat) (kind : OperandKind) (w : List Char) :
    (∃ op, Spells kind w op) ∨ ∃ fault, Misspells position kind w fault := by
  by_cases hn : ∃ v : Int64, Text.Decimal w v.toInt
  · obtain ⟨v, hv⟩ := hn
    cases kind with
    | number => exact .inl ⟨_, .literal hv⟩
    | label =>
      by_cases hd : ∃ d : Int32, d.toInt = v.toInt
      · obtain ⟨d, hd⟩ := hd
        exact .inl ⟨_, .distance (hd ▸ hv)⟩
      · exact .inr ⟨_, .far hv (not_exists.mp hd)⟩
    | register => exact .inr ⟨_, .number (by decide) hv⟩
    | channel => exact .inr ⟨_, .number (by decide) hv⟩
  · have hn := not_exists.mp hn
    by_cases hc : ∃ id, ChannelWord w id
    · obtain ⟨id, hid⟩ := hc
      exact .inl ⟨_, .channel hid⟩
    · have hc := not_exists.mp hc
      by_cases hr : ∃ r : Register, w = r.word.toList
      · obtain ⟨r, rfl⟩ := hr
        have hread : ∀ kind ∈ [OperandKind.number, .label],
            (∃ op, Spells kind r.word.toList op) ∨
              ∃ fault, Misspells position kind r.word.toList fault := by
          intro kind hkind
          by_cases hread : r.readable
          · exact .inl ⟨_, .source hkind hread⟩
          · exact .inr ⟨_, .unreadable hkind (by simpa using hread)⟩
        cases kind with
        | register =>
          by_cases hwrite : r.writable
          · exact .inl ⟨_, .destination hwrite⟩
          · exact .inr ⟨_, .unwritable (by simpa using hwrite)⟩
        | channel => exact .inr ⟨_, .channel hn hc⟩
        | number => exact hread _ (by decide)
        | label => exact hread _ (by decide)
      · have hother : Unlisted w := ⟨hn, not_exists.mp hr, hc⟩
        cases kind with
        | register => exact .inr ⟨_, .operand (by decide) hother⟩
        | number => exact .inr ⟨_, .operand (by decide) hother⟩
        | channel => exact .inr ⟨_, .channel hn hc⟩
        | label =>
          by_cases hname : isName w
          · exact .inl ⟨_, .label hname hother.register hother.channel⟩
          · exact .inr ⟨_, .label hother (by simpa using hname)⟩

inductive SpelledAll : List OperandKind → List (List Char) → List Operand → Prop
  | nil : SpelledAll [] [] []
  | cons {kind : OperandKind} {kinds : List OperandKind} {w : List Char} {ws : List (List Char)}
      {op : Operand} {ops : List Operand} (h : Spells kind w op) (hrest : SpelledAll kinds ws ops) :
      SpelledAll (kind :: kinds) (w :: ws) (op :: ops)

theorem SpelledAll.length_eq {kinds : List OperandKind} {ws : List (List Char)} {ops : List Operand}
    (h : SpelledAll kinds ws ops) : ws.length = kinds.length := by
  induction h with
  | nil => rfl
  | cons h hrest ih => exact congrArg (· + 1) ih

inductive FirstMisspelt : Nat → List OperandKind → List (List Char) → AssemblyFault → Prop
  | here {position : Nat} {kind : OperandKind} {kinds : List OperandKind} {w : List Char}
      {ws : List (List Char)} {fault : AssemblyFault} (h : Misspells position kind w fault) :
      FirstMisspelt position (kind :: kinds) (w :: ws) fault
  | later {position : Nat} {kind : OperandKind} {kinds : List OperandKind} {w : List Char}
      {ws : List (List Char)} {op : Operand} {fault : AssemblyFault} (h : Spells kind w op)
      (hrest : FirstMisspelt (position + 1) kinds ws fault) :
      FirstMisspelt position (kind :: kinds) (w :: ws) fault

theorem operands_settle {kinds : List OperandKind} {ws : List (List Char)}
    (hlen : ws.length = kinds.length) (position : Nat) :
    Settles (operands position kinds ws) (SpelledAll kinds ws)
      (FirstMisspelt position kinds ws) := by
  induction kinds generalizing position ws with
  | nil =>
    rw [List.eq_nil_of_length_eq_zero hlen]
    refine .of_total (.inl ⟨[], .nil⟩) (fun ops h => ?_) fun fault h => ?_
    · cases h
      rfl
    · cases h
  | cons kind kinds ih =>
    obtain ⟨w, ws, rfl⟩ := List.exists_cons_of_length_eq_add_one hlen
    have hrest := ih (Nat.succ.inj hlen) (position + 1)
    refine .of_total ?_ (fun ops h => ?_) fun fault h => ?_
    · rcases spells_or_misspells position kind w with ⟨op, hop⟩ | ⟨fault, hf⟩
      · rcases hrest.total with ⟨ops, hops⟩ | ⟨fault, hf⟩
        · exact .inl ⟨_, .cons hop hops⟩
        · exact .inr ⟨_, .later hop hf⟩
      · exact .inr ⟨_, .here hf⟩
    · cases h with
      | cons h hops =>
        rw [operands, operand_of_spells h, (hrest.ok _).mpr hops]
        rfl
    · cases h with
      | here h =>
        rw [operands, operand_of_misspells h]
        rfl
      | later h hf =>
        rw [operands, operand_of_spells h, (hrest.error _).mpr hf]
        rfl

/-! Lines. -/

inductive Reads (line : Nat) : List Char → Instruction → Prop
  | nop {s : List Char} (h : Text.Worded s ["nop".toList]) : Reads line s (.nop line)
  | operation {s : List Char} {opcode : Opcode} {ws : List (List Char)} {ops : List Operand}
      (h : Text.Worded s (opcode.word.toList :: ws)) (hops : SpelledAll opcode.signature ws ops) :
      Reads line s ⟨opcode, ops, line⟩

inductive Misreads : List Char → AssemblyFault → Prop
  | wordless {s : List Char} (h : Text.Worded s []) : Misreads s (.invalidOperand (String.ofList s))
  | unknown {s w : List Char} {ws : List (List Char)} (h : Text.Worded s (w :: ws))
      (hop : ∀ opcode : Opcode, w ≠ opcode.word.toList) (hnop : w = "nop".toList → ws ≠ []) :
      Misreads s (.unknownInstruction (String.ofList w))
  | count {s : List Char} {opcode : Opcode} {ws : List (List Char)}
      (h : Text.Worded s (opcode.word.toList :: ws)) (hlen : ws.length ≠ opcode.arity) :
      Misreads s (.operandCount opcode)
  | operand {s : List Char} {opcode : Opcode} {ws : List (List Char)} {fault : AssemblyFault}
      (h : Text.Worded s (opcode.word.toList :: ws)) (hlen : ws.length = opcode.arity)
      (hf : FirstMisspelt 1 opcode.signature ws fault) : Misreads s fault

theorem reads_or_misreads (line : Nat) (s : List Char) :
    (∃ i, Reads line s i) ∨ ∃ fault, Misreads s fault := by
  have hs := Text.worded_words s
  cases hw : Text.words s with
  | nil => exact .inr ⟨_, .wordless (hw ▸ hs)⟩
  | cons w ws =>
    rw [hw] at hs
    by_cases hnop : w = "nop".toList ∧ ws = []
    · obtain ⟨rfl, rfl⟩ := hnop
      exact .inl ⟨_, .nop hs⟩
    · by_cases hop : ∃ opcode : Opcode, w = opcode.word.toList
      · obtain ⟨opcode, rfl⟩ := hop
        by_cases hlen : ws.length = opcode.arity
        · rcases (operands_settle hlen 1).total with ⟨ops, hops⟩ | ⟨fault, hf⟩
          · exact .inl ⟨_, .operation hs hops⟩
          · exact .inr ⟨_, .operand hs hlen hf⟩
        · exact .inr ⟨_, .count hs hlen⟩
      · exact .inr ⟨_, .unknown hs (not_exists.mp hop) fun hword hnil => hnop ⟨hword, hnil⟩⟩

theorem instruction_opcode {s : List Char} {opcode : Opcode} {ws : List (List Char)}
    (h : Text.Worded s (opcode.word.toList :: ws)) (line : Nat) :
    instruction line s =
      if ws.length = opcode.arity then do
        let ops ← operands 1 opcode.signature ws
        return ⟨opcode, ops, line⟩
      else .error (.operandCount opcode) := by
  obtain ⟨hword, hnop⟩ := ofWord?_opcode opcode
  rw [instruction, Text.worded_iff.mp h]
  simp only [hword, hnop, false_and, if_false]

theorem instruction_settles (line : Nat) (s : List Char) :
    Settles (instruction line s) (Reads line s) (Misreads s) := by
  refine .of_total (reads_or_misreads line s) (fun i h => ?_) fun fault h => ?_
  · cases h with
    | nop h =>
      rw [instruction, Text.worded_iff.mp h]
      exact if_pos ⟨rfl, rfl⟩
    | operation h hops =>
      have hlen : _ = Opcode.arity _ := hops.length_eq
      rw [instruction_opcode h, if_pos hlen, ((operands_settle hlen 1).ok _).mpr hops]
      rfl
  · cases h with
    | wordless h => rw [instruction, Text.worded_iff.mp h]
    | unknown h hop hnop =>
      have hnone := Option.eq_none_iff_forall_ne_some.mpr
        fun opcode ho => hop opcode (opcode_ofWord?_iff.mp ho)
      rw [instruction, Text.worded_iff.mp h]
      simp only [hnone]
      exact if_neg fun hall => hnop hall.1 hall.2
    | count h hlen => rw [instruction_opcode h, if_neg hlen]
    | operand h hlen hf =>
      rw [instruction_opcode h, if_pos hlen, ((operands_settle hlen 1).error _).mpr hf]
      rfl

/-- What a line holds besides its comment and the white space at its ends, in lower case. -/
def code (raw : List Char) : List Char :=
  Text.trim ((Text.lowercase raw).takeWhile fun c => !startsComment c)

/-- A text divided into a label and a rest. Where it does not begin with a name and a colon there is
no label, and the rest is the whole. -/
inductive Divides : List Char → Option String → List Char → Prop
  | labelled {name rest : List Char} (h : isName name) :
      Divides (name ++ ':' :: rest) (some (String.ofList name)) (Text.trim rest)
  | bare {s : List Char} (h : ∀ name rest, isName name → s ≠ name ++ ':' :: rest) :
      Divides s none s

theorem colon_not_mem_name {name : List Char} (h : isName name) : ':' ∉ name := by
  cases name with
  | nil => exact List.not_mem_nil
  | cons c rest =>
    obtain ⟨hc, hrest⟩ := Bool.and_eq_true_iff.mp h
    intro hmem
    rcases List.mem_cons.mp hmem with rfl | hmem
    · cases hc
    · exact absurd (List.all_eq_true.mp hrest ':' hmem) (by decide)

theorem divides_iff {s : List Char} {label : Option String} {rest : List Char} :
    Divides s label rest ↔ splitLabel s = (label, rest) := by
  constructor
  · intro h
    cases h with
    | labelled h =>
      rw [splitLabel, Text.cutAt_eq_some_iff.mpr ⟨rfl, colon_not_mem_name h⟩]
      exact if_pos h
    | bare h =>
      unfold splitLabel
      split
      · rename_i hcut
        split_ifs with hname
        · exact absurd (Text.cutAt_eq_some_iff.mp hcut).1 (h _ _ hname)
        · rfl
      · rfl
  · intro h
    unfold splitLabel at h
    split at h
    · rename_i hcut
      obtain ⟨rfl, hcolon⟩ := Text.cutAt_eq_some_iff.mp hcut
      split_ifs at h with hname
      · cases h
        exact .labelled hname
      · cases h
        refine .bare fun other after hother heq => ?_
        have hsame := Text.cutAt_eq_some_iff.mpr ⟨heq, colon_not_mem_name hother⟩
        cases hcut.symm.trans hsame
        exact hname hother
    · rename_i hcut
      cases h
      refine .bare fun name rest hname heq => ?_
      have hsome := Text.cutAt_eq_some_iff.mpr ⟨heq, colon_not_mem_name hname⟩
      cases hcut.symm.trans hsome

def Labelled (raw : List Char) (name : String) : Prop := ∃ rest, Divides (code raw) (some name) rest

def Vacant (raw : List Char) : Prop := ∃ label, Divides (code raw) label []

def Holds (line : Nat) (raw : List Char) (i : Instruction) : Prop :=
  ∃ label rest, Divides (code raw) label rest ∧ rest ≠ [] ∧ Reads line rest i

def Faulty (raw : List Char) (fault : AssemblyFault) : Prop :=
  ∃ label rest, Divides (code raw) label rest ∧ rest ≠ [] ∧ Misreads rest fault

section
variable {line : Nat} {raw : List Char}

theorem Holds.line_eq {i : Instruction} (h : Holds line raw i) : i.line = line := by
  obtain ⟨label, rest, -, -, hreads⟩ := h
  cases hreads <;> rfl

theorem read_eq (line : Nat) (raw : List Char) :
    read line raw = ⟨(splitLabel (code raw)).1,
      if (splitLabel (code raw)).2 = [] then .ok none
      else (instruction line (splitLabel (code raw)).2).map some⟩ := rfl

theorem exists_divides {P : List Char → Prop} :
    (∃ label rest, Divides (code raw) label rest ∧ P rest) ↔ P (splitLabel (code raw)).2 := by
  constructor
  · intro h
    obtain ⟨label, rest, hd, hp⟩ := h
    rw [divides_iff.mp hd]
    exact hp
  · intro h
    exact ⟨_, _, divides_iff.mpr rfl, h⟩

theorem label_read_iff {name : String} : (read line raw).label = some name ↔ Labelled raw name := by
  simp only [read_eq, Labelled, divides_iff, Prod.ext_iff, exists_and_left, exists_eq', and_true]

theorem body_read_none_iff : (read line raw).body = .ok none ↔ Vacant raw := by
  simp only [read_eq, Vacant, divides_iff, Prod.ext_iff, exists_and_right, exists_eq', true_and]
  split_ifs with hempty
  · simp [hempty]
  · simp only [hempty, iff_false]
    cases instruction line (splitLabel (code raw)).2 <;> simp [Except.map]

theorem body_read_some_iff {i : Instruction} :
    (read line raw).body = .ok (some i) ↔ Holds line raw i := by
  rw [Holds, exists_divides, ← (instruction_settles line _).ok, read_eq]
  split_ifs with hempty
  · simp [hempty]
  · cases instruction line (splitLabel (code raw)).2 <;> simp [Except.map, hempty]

theorem body_read_error_iff {fault : AssemblyFault} :
    (read line raw).body = .error fault ↔ Faulty raw fault := by
  rw [Faulty, exists_divides, ← (instruction_settles line _).error, read_eq]
  split_ifs with hempty
  · simp [hempty]
  · cases instruction line (splitLabel (code raw)).2 <;> simp [Except.map, hempty]

end

end SourceLine
end Lockstep
