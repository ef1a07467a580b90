import Lockstep.Proofs.Tables
import Lockstep.Simulation.Basic
import Mathlib.Algebra.BigOperators.Group.List.Basic
import Mathlib.Algebra.Ring.Int.Defs

/-!
What the channels carry: under each number that some node broadcasts on, the clamped sum of what is
broadcast there. It does not depend on the order of the nodes.
-/
namespace Lockstep

abbrev Broadcast := UInt32 × Int

def onChannel (id : UInt32) (bs : List Broadcast) : List Int :=
  (bs.filter fun b => b.1 = id).map (·.2)

def broadcastsOf (ns : List Node) : List Broadcast := ns.flatMap Node.broadcasts

namespace Table

def addAll (bs : List Broadcast) (t : Table UInt32 Int) : Table UInt32 Int :=
  bs.foldl (fun sums b => sums.add b.1 b.2) t

theorem sorted_empty : (Table.empty : Table UInt32 Int).Sorted := List.Pairwise.nil

theorem Sorted.add {t : Table UInt32 Int} (ht : t.Sorted) (id : UInt32) (v : Int) :
    (t.add id v).Sorted :=
  sortedIn_alterIn _ _ ht

theorem Sorted.addAll {t : Table UInt32 Int} (ht : t.Sorted) (bs : List Broadcast) :
    (t.addAll bs).Sorted := by
  induction bs generalizing t with
  | nil => exact ht
  | cons b bs ih => exact ih (ht.add b.1 b.2)

theorem find?_addAll {t : Table UInt32 Int} (ht : t.Sorted) (bs : List Broadcast) (id : UInt32) :
    (t.addAll bs).find? id =
      if t.find? id = none ∧ onChannel id bs = [] then none
      else some ((t.find? id).getD 0 + (onChannel id bs).sum) := by
  induction bs generalizing t with
  | nil => cases h : t.find? id <;> simp [Table.addAll, onChannel, h]
  | cons b bs ih =>
    have hstep : (t.addAll (b :: bs)).find? id = ((t.add b.1 b.2).addAll bs).find? id := rfl
    rw [hstep, ih (ht.add b.1 b.2)]
    by_cases hb : b.1 = id
    · subst hb
      have hf : (t.add b.1 b.2).find? b.1 = some ((t.find? b.1).getD 0 + b.2) :=
        findIn_alterIn_self _ _ ht
      simp [hf, onChannel, add_assoc]
    · have hf : (t.add b.1 b.2).find? id = t.find? id :=
        findIn_alterIn_of_ne (Ne.symm hb) _ _
      have hc : onChannel id (b :: bs) = onChannel id bs := by simp [onChannel, hb]
      rw [hf, hc]

end Table

namespace Simulation

theorem mixChannels_eq (ns : List Node) :
    mixChannels ns = (Table.empty.addAll (broadcastsOf ns)).map clamp := by
  simp only [mixChannels, Table.addAll, broadcastsOf, List.foldl_flatMap]

theorem mixChannels_sorted (ns : List Node) : (mixChannels ns).Sorted := by
  rw [mixChannels_eq]
  exact (Table.sorted_empty.addAll _).map clamp

/-- The channel map has a value exactly where some node broadcasts, and it is the clamped sum. -/
theorem mixChannels_find? (ns : List Node) (id : UInt32) :
    (mixChannels ns).find? id =
      if onChannel id (broadcastsOf ns) = [] then none
      else some (clamp (onChannel id (broadcastsOf ns)).sum) := by
  rw [mixChannels_eq, Table.find?_map, Table.find?_addAll Table.sorted_empty]
  have hnone : (Table.empty : Table UInt32 Int).find? id = none := rfl
  simp only [hnone, true_and, Option.getD_none, zero_add]
  split_ifs <;> rfl

theorem mixChannels_perm {ns ms : List Node}
    (h : (ns.map Node.broadcasts).Perm (ms.map Node.broadcasts)) :
    mixChannels ns = mixChannels ms := by
  have hb : (broadcastsOf ns).Perm (broadcastsOf ms) := by
    simpa only [broadcastsOf, List.flatMap_def] using h.flatten
  apply (mixChannels_sorted ns).ext (mixChannels_sorted ms)
  intro id
  have hc : (onChannel id (broadcastsOf ns)).Perm (onChannel id (broadcastsOf ms)) :=
    (hb.filter _).map _
  have hnil : onChannel id (broadcastsOf ns) = [] ↔ onChannel id (broadcastsOf ms) = [] := by
    rw [← List.length_eq_zero_iff, hc.length_eq, List.length_eq_zero_iff]
  rw [mixChannels_find?, mixChannels_find?, hc.sum_eq]
  simp only [hnil]

end Simulation
end Lockstep
