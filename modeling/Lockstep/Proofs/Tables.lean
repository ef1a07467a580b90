import Lockstep.Table
import Mathlib.Tactic.Common

/-!
Tables whose keys stand in increasing order. Such a table is known by what it has under each key,
and putting something under a key keeps the order.
-/
namespace Lockstep.Table
open Std (TransOrd LawfulEqOrd)
variable {κ α β : Type} [Ord κ] [TransOrd κ] [LawfulEqOrd κ]

def SortedIn (es : List (κ × α)) : Prop := es.Pairwise fun a b => compare a.1 b.1 = .lt

def Sorted (t : Table κ α) : Prop := SortedIn t.entries

omit [TransOrd κ] [LawfulEqOrd κ] in
theorem findIn_eq_none {key : κ} {es : List (κ × α)} (h : ∀ e ∈ es, compare key e.1 ≠ .eq) :
    findIn key es = none := by
  induction es with
  | nil => rfl
  | cons e es ih =>
    rw [findIn, if_neg (h e (.head _)), ih fun e he => h e (.tail _ he)]

omit [LawfulEqOrd κ] in
theorem findIn_before {key : κ} {e : κ × α} {es : List (κ × α)} (hs : SortedIn (e :: es))
    (hk : compare key e.1 = .lt) : findIn key (e :: es) = none := by
  apply findIn_eq_none
  intro d hd
  rcases List.mem_cons.mp hd with rfl | hd
  · simp [hk]
  · simp [Std.TransCmp.lt_trans hk ((List.pairwise_cons.mp hs).1 d hd)]

theorem findIn_alterIn_self (key : κ) (change : Option α → α) {es : List (κ × α)}
    (hs : SortedIn es) :
    findIn key (alterIn key change es) = some (change (findIn key es)) := by
  induction es with
  | nil => simp [alterIn, findIn]
  | cons e es ih =>
    have hes := (List.pairwise_cons.mp hs).2
    simp only [alterIn]
    cases hc : compare key e.1 with
    | lt =>
      rw [findIn_before hs hc]
      simp [findIn]
    | eq => simp [findIn, hc]
    | gt => simp [findIn, hc, ih hes]

omit [TransOrd κ] in
theorem findIn_alterIn_of_ne {key k : κ} (hk : k ≠ key) (change : Option α → α)
    (es : List (κ × α)) : findIn k (alterIn key change es) = findIn k es := by
  have hne : compare k key ≠ .eq := fun h => hk (Std.LawfulEqCmp.eq_of_compare h)
  induction es with
  | nil => simp [alterIn, findIn, hne]
  | cons e es ih =>
    simp only [alterIn]
    cases hc : compare key e.1 with
    | lt => simp [findIn, hne]
    | eq => simp [findIn, Std.LawfulEqCmp.eq_of_compare hc ▸ hne]
    | gt => simp [findIn, ih]

omit [TransOrd κ] in
theorem mem_alterIn {key : κ} {change : Option α → α} {es : List (κ × α)} {e : κ × α}
    (h : e ∈ alterIn key change es) : e.1 = key ∨ e ∈ es := by
  induction es with
  | nil => exact .inl (by simp_all [alterIn])
  | cons d es ih =>
    simp only [alterIn] at h
    cases hc : compare key d.1 with
    | lt =>
      simp only [hc] at h
      rcases List.mem_cons.mp h with rfl | h
      · exact .inl rfl
      · exact .inr h
    | eq =>
      simp only [hc] at h
      rcases List.mem_cons.mp h with rfl | h
      · exact .inl (Std.LawfulEqCmp.eq_of_compare hc).symm
      · exact .inr (.tail _ h)
    | gt =>
      simp only [hc] at h
      rcases List.mem_cons.mp h with rfl | h
      · exact .inr (.head _)
      · exact (ih h).imp_right (.tail _)

theorem sortedIn_alterIn (key : κ) (change : Option α → α) {es : List (κ × α)}
    (hs : SortedIn es) : SortedIn (alterIn key change es) := by
  induction es with
  | nil => exact List.pairwise_singleton _ _
  | cons d es ih =>
    obtain ⟨hd, hes⟩ := List.pairwise_cons.mp hs
    simp only [alterIn]
    cases hc : compare key d.1 with
    | lt =>
      refine List.pairwise_cons.mpr ⟨fun e he => ?_, hs⟩
      rcases List.mem_cons.mp he with rfl | he
      · exact hc
      · exact Std.TransCmp.lt_trans hc (hd e he)
    | eq => exact List.pairwise_cons.mpr ⟨hd, hes⟩
    | gt =>
      refine List.pairwise_cons.mpr ⟨fun e he => ?_, ih hes⟩
      rcases mem_alterIn he with hk | he
      · rw [hk]
        exact Std.OrientedCmp.lt_of_gt hc
      · exact hd e he

/-- A sorted table is known by what it has under each key. -/
theorem sortedIn_ext {es ds : List (κ × α)} (hes : SortedIn es) (hds : SortedIn ds)
    (h : ∀ k, findIn k es = findIn k ds) : es = ds := by
  induction es generalizing ds with
  | nil =>
    cases ds with
    | nil => rfl
    | cons d ds => simpa [findIn] using h d.1
  | cons e es ih =>
    cases ds with
    | nil => simpa [findIn] using h e.1
    | cons d ds =>
      -- the smaller of two first keys would be bound in one of the tables only
      have hkey : e.1 = d.1 := by
        cases hc : compare e.1 d.1 with
        | eq => exact Std.LawfulEqCmp.eq_of_compare hc
        | lt =>
          have hk := h e.1
          rw [findIn_before hds hc] at hk
          simp [findIn] at hk
        | gt =>
          have hk := h d.1
          rw [findIn_before hes (Std.OrientedCmp.lt_of_gt hc)] at hk
          simp [findIn] at hk
      have hval : e.2 = d.2 := by simpa [findIn, hkey] using h e.1
      obtain rfl : e = d := Prod.ext hkey hval
      obtain ⟨he, hes⟩ := List.pairwise_cons.mp hes
      obtain ⟨hd, hds⟩ := List.pairwise_cons.mp hds
      congr 1
      apply ih hes hds
      intro k
      have hk := h k
      simp only [findIn] at hk
      split_ifs at hk with hc
      · obtain rfl := Std.LawfulEqCmp.eq_of_compare hc
        rw [findIn_eq_none fun e he' => by simp [he e he'],
          findIn_eq_none fun e he' => by simp [hd e he']]
      · exact hk

theorem Sorted.ext {t u : Table κ α} (ht : t.Sorted) (hu : u.Sorted)
    (h : ∀ k, t.find? k = u.find? k) : t = u := by
  obtain ⟨es⟩ := t
  obtain ⟨ds⟩ := u
  exact congrArg Table.mk (sortedIn_ext ht hu h)

omit [TransOrd κ] [LawfulEqOrd κ] in
theorem find?_map (f : α → β) (t : Table κ α) (k : κ) :
    (t.map f).find? k = (t.find? k).map f := by
  obtain ⟨es⟩ := t
  simp only [find?, map]
  induction es with
  | nil => rfl
  | cons e es ih =>
    simp only [List.map_cons, findIn]
    split_ifs
    · rfl
    · exact ih

omit [TransOrd κ] [LawfulEqOrd κ] in
theorem Sorted.map {t : Table κ α} (ht : t.Sorted) (f : α → β) : (t.map f).Sorted :=
  List.pairwise_map.mpr ht

/-! What is found after a change, and in a table that is put together entry by entry. -/

theorem Sorted.insert {t : Table κ α} (ht : t.Sorted) (key : κ) (a : α) : (t.insert key a).Sorted :=
  sortedIn_alterIn _ _ ht

omit [TransOrd κ] [LawfulEqOrd κ] in
theorem Sorted.erase {t : Table κ α} (ht : t.Sorted) (key : κ) : (t.erase key).Sorted :=
  List.Pairwise.filter _ ht

theorem find?_insert [DecidableEq κ] {t : Table κ α} (ht : t.Sorted) (key k : κ) (a : α) :
    (t.insert key a).find? k = if k = key then some a else t.find? k := by
  split_ifs with hk
  · rw [hk]
    exact findIn_alterIn_self _ _ ht
  · exact findIn_alterIn_of_ne hk _ _

theorem Sorted.insertNew {t : Table κ α} (ht : t.Sorted) (key : κ) (a : α) :
    (t.insertNew key a).Sorted :=
  sortedIn_alterIn _ _ ht

theorem find?_insertNew [DecidableEq κ] {t : Table κ α} (ht : t.Sorted) (key k : κ) (a : α) :
    (t.insertNew key a).find? k = if k = key then some ((t.find? key).getD a) else t.find? k := by
  split_ifs with hk
  · rw [hk]
    exact findIn_alterIn_self _ _ ht
  · exact findIn_alterIn_of_ne hk _ _

omit [TransOrd κ] in
theorem findIn_cons [DecidableEq κ] (k : κ) (e : κ × α) (es : List (κ × α)) :
    findIn k (e :: es) = if k = e.1 then some e.2 else findIn k es := by
  simp only [findIn, Std.compare_eq_iff_eq]

omit [TransOrd κ] in
theorem findIn_isSome_iff [DecidableEq κ] {k : κ} {es : List (κ × α)} :
    (findIn k es).isSome = true ↔ k ∈ es.map (·.1) := by
  induction es with
  | nil => simp [findIn]
  | cons e es ih =>
    rw [findIn_cons, List.map_cons, List.mem_cons, ← ih]
    split_ifs with hk
    · simp [hk]
    · simp [hk]

omit [TransOrd κ] in
theorem mem_of_findIn [DecidableEq κ] {k : κ} {a : α} {es : List (κ × α)}
    (h : findIn k es = some a) : (k, a) ∈ es := by
  induction es with
  | nil => cases h
  | cons e es ih =>
    rw [findIn_cons] at h
    split_ifs at h with hk
    · rw [hk, ← Option.some.inj h]
      exact .head _
    · exact .tail _ (ih h)

omit [TransOrd κ] in
theorem findIn_of_mem {key : κ} {a : α} {es : List (κ × α)} (hs : SortedIn es)
    (h : (key, a) ∈ es) : findIn key es = some a := by
  induction es with
  | nil => cases h
  | cons e es ih =>
    obtain ⟨hfirst, hes⟩ := List.pairwise_cons.mp hs
    rw [findIn]
    rcases List.mem_cons.mp h with rfl | hmem
    · exact if_pos Std.ReflCmp.compare_self
    · have hne : compare key e.1 ≠ .eq := fun heq => by
        have hlt := hfirst _ hmem
        simp [Std.LawfulEqCmp.eq_of_compare heq] at hlt
      rw [if_neg hne, ih hes hmem]

omit [TransOrd κ] in
theorem Sorted.unique {t : Table κ α} (ht : t.Sorted) {key : κ} {a b : α}
    (ha : (key, a) ∈ t.entries) (hb : (key, b) ∈ t.entries) : a = b :=
  Option.some.inj ((findIn_of_mem ht ha).symm.trans (findIn_of_mem ht hb))

omit [TransOrd κ] in
theorem findIn_filter [DecidableEq κ] (key k : κ) (es : List (κ × α)) :
    findIn k (es.filter fun e => e.1 ≠ key) = if k = key then none else findIn k es := by
  induction es with
  | nil => simp [findIn]
  | cons e es ih =>
    by_cases he : e.1 = key
    · rw [List.filter_cons_of_neg (by simpa using he), ih, findIn_cons, he]
      split_ifs <;> rfl
    · rw [List.filter_cons_of_pos (by simpa using he), findIn_cons, findIn_cons, ih]
      by_cases hk : k = key
      · rw [if_neg fun h => he (h.symm.trans hk), if_pos hk, if_pos hk]
      · rw [if_neg hk, if_neg hk]

omit [TransOrd κ] in
theorem findIn_replace [DecidableEq κ] (key k : κ) (a : α) (es : List (κ × α)) :
    findIn k (es.map fun e => if e.1 = key then (key, a) else e) =
      if k = key then (findIn key es).map fun _ => a else findIn k es := by
  induction es with
  | nil => simp [findIn]
  | cons e es ih =>
    simp only [List.map_cons, findIn_cons]
    by_cases he : e.1 = key
    · rw [if_pos he, ih, he, if_pos rfl]
      split_ifs <;> rfl
    · rw [if_neg he, ih, if_neg (Ne.symm he)]
      by_cases hk : k = key
      · rw [if_pos hk, if_pos hk, if_neg fun h => he (h.symm.trans hk)]
      · rw [if_neg hk, if_neg hk]

omit [TransOrd κ] in
theorem find?_erase [DecidableEq κ] (t : Table κ α) (key k : κ) :
    (t.erase key).find? k = if k = key then none else t.find? k := by
  have hentries : (t.erase key).entries = t.entries.filter fun e => e.1 ≠ key := by
    refine List.filter_congr fun e _ => decide_eq_decide.mpr ?_
    rw [ne_eq, Std.compare_eq_iff_eq]
    exact ne_comm
  rw [find?, hentries, findIn_filter, find?]

theorem sorted_ofList (es : List (κ × α)) : (ofList es).Sorted := by
  have hfold : ∀ t : Table κ α, t.Sorted → (es.foldl (fun t e => t.insert e.1 e.2) t).Sorted := by
    induction es with
    | nil => exact fun t ht => ht
    | cons e es ih => exact fun t ht => ih _ (ht.insert e.1 e.2)
  exact hfold empty List.Pairwise.nil

theorem find?_ofList [DecidableEq κ] {es : List (κ × α)} (h : (es.map (·.1)).Nodup) (k : κ) :
    (ofList es).find? k = findIn k es := by
  have hfold : ∀ t : Table κ α, t.Sorted →
      (es.foldl (fun t e => t.insert e.1 e.2) t).find? k = (findIn k es).or (t.find? k) := by
    induction es with
    | nil => exact fun t ht => rfl
    | cons e es ih =>
      intro t ht
      obtain ⟨hout, hes⟩ := List.nodup_cons.mp h
      rw [List.foldl_cons, ih hes _ (ht.insert e.1 e.2), find?_insert ht, findIn_cons]
      split_ifs with hk
      · have hnone : findIn k es = none := by
          rw [← Option.not_isSome_iff_eq_none, findIn_isSome_iff, hk]
          exact hout
        rw [hnone]
        rfl
      · rfl
  rw [ofList, hfold empty List.Pairwise.nil]
  exact Option.or_none

end Lockstep.Table
