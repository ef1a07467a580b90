import Lockstep.Layout.Code
import Lockstep.Proofs.CodeExact

/-!
The code of a layout. Entries with programs that are well-formed, no two in one slot, are read back
from their code in the same order. The code is exact, as that of a program is: entries that are read
are written as just the characters they were read from.
-/
namespace Lockstep

theorem Text.toNat_of_uint8? {n : Nat} {v : UInt8} (h : Text.uint8? n = some v) : v.toNat = n := by
  unfold Text.uint8? at h
  split_ifs at h with hn
  rw [← Option.some.inj h]
  exact UInt8.toNat_ofNat_of_lt' hn

def LayoutEntry.relined (e : LayoutEntry) : LayoutEntry := { e with program := e.program.relined }

namespace Code
open Text (NoDigitNext)

theorem ofCode?_classCode (c : NodeClass) : NodeClass.ofCode? c.code = some c := by
  cases c <;> rfl

theorem readClass_code (c : NodeClass) (o : Nat) (rest : List Char) :
    readClass ⟨o, c.code :: rest⟩ = .ok (c, ⟨o + 1, rest⟩) := by
  simp only [readClass, ofCode?_classCode]
  rfl

theorem readSlot_digits (slot : UInt8) {rest : List Char} (hr : NoDigitNext rest) (o : Nat) :
    readSlot ⟨o, Text.digits slot.toNat ++ rest⟩ =
      .ok (slot, ⟨o + (Text.digits slot.toNat).length, rest⟩) := by
  have htake : Cursor.digits ⟨o, Text.digits slot.toNat ++ rest⟩ = Text.digits slot.toNat :=
    Text.takeWhile_digits (fun c hc => Text.isDigit_of_mem_digits hc) hr
  have hval := Text.ofDigitChars_digits slot.toNat
  have hne := Text.digits_ne_nil slot.toNat
  have hzero : ∀ d ds, Text.digits slot.toNat ≠ '0' :: d :: ds := by
    intro d ds h
    by_cases hs : slot.toNat = 0
    · rw [hs] at h
      cases h
    · exact Text.digits_head_ne_zero hs (h ▸ rfl)
  unfold readSlot
  rw [htake]
  generalize Text.digits slot.toNat = ds at hval hne hzero
  split
  · exact absurd rfl hne
  · exact absurd rfl (hzero _ _)
  · rw [hval, Text.uint8?_toNat]
    simp only [Cursor.skip, List.drop_left]

theorem entries_roundTrip {l : Layout} (hwf : ∀ e ∈ l, e.program.WellFormed)
    (hslots : (l.map (·.slot)).Nodup) (taken : List UInt8) (htaken : ∀ e ∈ l, e.slot ∉ taken) :
    ∃ code, entries taken l = .ok code ∧ Ends code ∧
      ∀ fuel o, code.length ≤ fuel → readEntries fuel taken ⟨o, code⟩ =
        .ok (l.map LayoutEntry.relined) := by
  -- a node is read up to the mark of the next one, so the code of the rest has to begin with it
  induction l generalizing taken with
  | nil => exact ⟨[], rfl, .inl rfl, fun fuel o _ => by cases fuel <;> rfl⟩
  | cons e l ih =>
    obtain ⟨hslot, hrest⟩ := List.nodup_cons.mp hslots
    have hfree := htaken e (.head _)
    obtain ⟨code, hcode, hread⟩ := program_roundTrip (hwf e (.head _))
    have htaken' : ∀ f ∈ l, f.slot ∉ e.slot :: taken := by
      intro f hf hmem
      rcases List.mem_cons.mp hmem with hs | hmem
      · exact hslot (List.mem_map.mpr ⟨f, hf, hs⟩)
      · exact htaken f (.tail _ hf) hmem
    obtain ⟨more, hmore, hends, hreadMore⟩ := ih (fun f hf => hwf f (.tail _ hf)) hrest
      (e.slot :: taken) htaken'
    have hentry : entry e =
        .ok (nodeMark :: e.nodeClass.code :: (Text.digits e.slot.toNat ++ code)) := by
      rw [entry, hcode]
      rfl
    refine ⟨nodeMark :: e.nodeClass.code :: (Text.digits e.slot.toNat ++ code) ++ more, ?_,
      .inr ⟨_, rfl⟩, ?_⟩
    · rw [entries, if_neg hfree, hentry, hmore]
      rfl
    · intro fuel o hfuel
      cases fuel with
      | zero => simp at hfuel
      | succ fuel =>
        have hlen : more.length ≤ fuel := by
          simp only [List.length_append, List.length_cons] at hfuel
          omega
        have hnext := noDigitNext_instructions hcode hends
        have hskip : Cursor.skip ⟨o, nodeMark :: e.nodeClass.code ::
            (Text.digits e.slot.toNat ++ code) ++ more⟩ 1 =
            ⟨o + 1, e.nodeClass.code :: (Text.digits e.slot.toNat ++ (code ++ more))⟩ := by
          simp [Cursor.skip]
        rw [readEntries]
        simp only [List.cons_append, if_true]
        rw [← List.cons_append, ← List.cons_append, hskip, readClass_code]
        simp only [bind, Except.bind, readSlot_digits e.slot hnext, if_neg hfree, hread hends,
          hreadMore fuel _ hlen]
        rfl

/-! Exactness. -/

theorem spans_class {c next : Cursor} {nodeClass : NodeClass}
    (h : readClass c = .ok (nodeClass, next)) : Spans c [nodeClass.code] next := by
  unfold readClass at h
  split at h
  · cases h
  · rename_i letter rest hc
    split at h
    · rename_i hclass
      cases h
      have hfound := List.find?_some hclass
      rw [of_decide_eq_true hfound]
      exact spans_skip hc
    · cases h

theorem spans_slot {c next : Cursor} {slot : UInt8} (h : readSlot c = .ok (slot, next)) :
    Spans c (Text.digits slot.toNat) next := by
  have hd : ∀ d ∈ c.digits, d.isDigit := fun d hd => List.all_eq_true.mp List.all_takeWhile d hd
  unfold readSlot at h
  split at h
  · cases h
  · cases h
  · rename_i hne hzero
    have hcanon : Text.digits (Nat.ofDigitChars 10 c.digits 0) = c.digits := by
      by_cases hhead : c.digits.head? = some '0'
      · obtain ⟨ds, hds⟩ := List.head?_eq_some_iff.mp hhead
        cases ds with
        | nil => rw [hds]; rfl
        | cons d ds => exact absurd hds (hzero d ds)
      · exact Text.digits_ofDigitChars hne hd hhead
    split at h
    · rename_i hslot
      cases h
      rw [Text.toNat_of_uint8? hslot, hcanon]
      exact (List.prefix_iff_eq_append.mp (List.takeWhile_prefix Char.isDigit)).symm
    · cases h

theorem entries_cons {taken : List UInt8} {e : LayoutEntry} {l : Layout} {code : List Char}
    (h : entries taken (e :: l) = .ok code) :
    e.slot ∉ taken ∧ ∃ program more, instructionsFrom 0 e.program = .ok program ∧
      entries (e.slot :: taken) l = .ok more ∧
      code = nodeMark :: e.nodeClass.code :: (Text.digits e.slot.toNat ++ program) ++ more := by
  unfold entries at h
  split_ifs at h with hfree
  obtain ⟨first, hfirst, h⟩ := bind_eq_ok h
  obtain ⟨program, hprogram, hfirst⟩ := bind_eq_ok hfirst
  obtain ⟨more, hmore, h⟩ := bind_eq_ok h
  cases hfirst
  cases h
  exact ⟨hfree, program, more, hprogram, hmore, rfl⟩

theorem entries_distinct {taken : List UInt8} {l : Layout} {code : List Char}
    (h : entries taken l = .ok code) :
    (l.map (·.slot)).Nodup ∧ ∀ e ∈ l, e.slot ∉ taken := by
  induction l generalizing taken code with
  | nil => exact ⟨List.nodup_nil, nofun⟩
  | cons e l ih =>
    obtain ⟨hfree, program, more, -, hmore, rfl⟩ := entries_cons h
    obtain ⟨hrest, hother⟩ := ih hmore
    refine ⟨List.nodup_cons.mpr ⟨?_, hrest⟩, List.forall_mem_cons.mpr ⟨hfree, ?_⟩⟩
    · intro hmem
      obtain ⟨f, hf, hslot⟩ := List.mem_map.mp hmem
      exact hother f hf (hslot ▸ List.mem_cons_self)
    · exact fun f hf hmem => hother f hf (.tail _ hmem)

theorem spans_entries {fuel : Nat} {taken : List UInt8} {c : Cursor} {l : Layout}
    (hfuel : c.rest.length ≤ fuel) (h : readEntries fuel taken c = .ok l) :
    entries taken l = .ok c.rest ∧
      ∀ e ∈ l, e.program.WellFormed ∧ e.program.relined = e.program := by
  induction fuel generalizing taken c l with
  | zero =>
    cases h
    have hc := List.eq_nil_of_length_eq_zero (Nat.le_zero.mp hfuel)
    exact ⟨congrArg Except.ok hc.symm, nofun⟩
  | succ fuel ih =>
    unfold readEntries at h
    split at h
    · rename_i hc
      cases h
      exact ⟨congrArg Except.ok hc.symm, nofun⟩
    · rename_i mark rest hc
      split_ifs at h with hmark
      obtain ⟨⟨nodeClass, atSlot⟩, hclass, h⟩ := bind_eq_ok h
      obtain ⟨⟨slot, atProgram⟩, hslot, h⟩ := bind_eq_ok h
      simp only at h
      split_ifs at h with hfree
      obtain ⟨⟨program, next⟩, hprogram, h⟩ := bind_eq_ok h
      obtain ⟨others, hothers, h⟩ := bind_eq_ok h
      cases h
      obtain ⟨code, hcode, hspan, hlines⟩ := spans_program hprogram
      have hspans : Spans c (nodeMark :: nodeClass.code :: (Text.digits slot.toNat ++ code)) next :=
        hmark ▸ (spans_skip hc).append
          ((spans_class hclass).append ((spans_slot hslot).append hspan))
      -- the mark at least has been read, so what is left of the fuel is enough for the others
      have hleft : next.rest.length ≤ fuel := by
        rw [hspans, List.length_append, List.length_cons] at hfuel
        omega
      obtain ⟨hmore, hread⟩ := ih hleft hothers
      refine ⟨?_, List.forall_mem_cons.mpr ⟨⟨readProgram_wellFormed hprogram, hlines⟩, hread⟩⟩
      rw [entries, if_neg hfree, entry, hcode, hmore, hspans]
      rfl

end Code

namespace Layout

theorem encode_wellFormed {l : Layout} (hwf : ∀ e ∈ l, e.program.WellFormed)
    (hslots : (l.map (·.slot)).Nodup) :
    ∃ text, l.encode = .ok text ∧ decode text = .ok (l.map LayoutEntry.relined) := by
  obtain ⟨code, hcode, -, hread⟩ :=
    Code.entries_roundTrip hwf hslots [] fun e _ => List.not_mem_nil
  refine ⟨String.ofList code, by rw [encode, hcode]; rfl, ?_⟩
  rw [decode, String.toList_ofList]
  exact hread _ 0 (Nat.le_refl _)

theorem encode_of_decode {text : String} {l : Layout} (h : decode text = .ok l) :
    l.encode = .ok text ∧ (l.map (·.slot)).Nodup ∧
      ∀ e ∈ l, e.program.WellFormed ∧ e.program.relined = e.program := by
  obtain ⟨hcode, hread⟩ := Code.spans_entries (c := ⟨0, text.toList⟩) (Nat.le_refl _) h
  refine ⟨?_, (Code.entries_distinct hcode).1, hread⟩
  rw [encode, hcode]
  exact congrArg Except.ok String.ofList_toList

theorem map_relined {l : Layout} (h : ∀ e ∈ l, e.program.relined = e.program) :
    l.map LayoutEntry.relined = l := by
  conv_rhs => rw [← List.map_id l]
  apply List.map_congr_left
  intro e he
  rw [LayoutEntry.relined, h e he, id]

/-- The code is a bijection between the layouts of well-formed programs in slots of their own, the
lines of the programs apart, and the texts that can be read. It keeps the order of the entries. -/
theorem code_exact (text : String) (l : Layout) :
    (decode text = .ok l ↔
      (l.map (·.slot)).Nodup ∧ (∀ e ∈ l, e.program.WellFormed ∧ e.program.Numbered) ∧
        l.encode = .ok text) ∧
    ((l.map (·.slot)).Nodup ∧ (∀ e ∈ l, e.program.WellFormed) ↔
      ∃ code, l.encode = .ok code ∧ decode code = .ok (l.map LayoutEntry.relined)) := by
  constructor
  · constructor
    · intro h
      obtain ⟨hcode, hslots, hread⟩ := encode_of_decode h
      exact ⟨hslots, fun e he => ⟨(hread e he).1, Program.relined_eq_iff.mp (hread e he).2⟩, hcode⟩
    · rintro ⟨hslots, hprograms, hcode⟩
      obtain ⟨code, hcode', hback⟩ := encode_wellFormed (fun e he => (hprograms e he).1) hslots
      obtain rfl : code = text := Except.ok.inj (hcode'.symm.trans hcode)
      rw [hback, map_relined fun e he => Program.relined_eq_iff.mpr (hprograms e he).2]
  · constructor
    · rintro ⟨hslots, hprograms⟩
      exact encode_wellFormed hprograms hslots
    · rintro ⟨code, -, hback⟩
      obtain ⟨-, hslots, hread⟩ := encode_of_decode hback
      rw [List.map_map] at hslots
      refine ⟨hslots, fun e he => ?_⟩
      exact (hread e.relined (List.mem_map_of_mem he)).1.of_relined

end Layout
end Lockstep
