import Lockstep.Proofs.Reloading
import Lockstep.Proofs.Tables
import Lockstep.Watch

/-!
What becomes of the files that change in a directory that is followed. A poll forgets the paths that
are due and then reads them, so one that cannot be read takes the others with it; and a reload that
is refused takes the files after it. Nothing else is lost.
-/
namespace Lockstep

namespace Watch
variable {w : Watch} {files : Files} {reported paths : List String} {changed : List LayoutFile}
  {path : String} {now : Nanos}

/-- A later look finds the path due, with no change to it in between. -/
def Offers (w : Watch) (path : String) : Prop := ∃ later, path ∈ w.due later

theorem contains_iff : w.pending.contains path ↔ ∃ time, (path, time) ∈ w.pending.entries := by
  rw [Table.contains, Table.find?, Table.findIn_isSome_iff, List.mem_map]
  simp

theorem mem_due :
    path ∈ w.due now ↔ ∃ time, (path, time) ∈ w.pending.entries ∧ w.isDue now time := by
  simp [due]

theorem offers_iff : w.Offers path ↔ w.pending.contains path := by
  rw [contains_iff]
  constructor
  · rintro ⟨later, hdue⟩
    obtain ⟨time, htime, -⟩ := mem_due.mp hdue
    exact ⟨time, htime⟩
  · rintro ⟨time, htime⟩
    refine ⟨time + w.delay, mem_due.mpr ⟨time, htime, decide_eq_true ?_⟩⟩
    rw [Nat.add_sub_cancel_left]

theorem contains_forgetDue (hs : w.pending.Sorted) :
    (w.forgetDue now).pending.contains path ↔ w.pending.contains path ∧ path ∉ w.due now := by
  have hquiet : (w.forgetDue now).pending.contains path ↔
      ∃ time, (path, time) ∈ w.pending.entries ∧ ¬w.isDue now time := by
    rw [contains_iff]
    simp [forgetDue]
  rw [hquiet, contains_iff, mem_due]
  constructor
  · rintro ⟨time, htime, hnot⟩
    refine ⟨⟨time, htime⟩, fun ⟨other, hother, hdue⟩ => ?_⟩
    rw [hs.unique hother htime] at hdue
    exact hnot hdue
  · rintro ⟨⟨time, htime⟩, hdue⟩
    exact ⟨time, htime, fun h => hdue ⟨time, htime, h⟩⟩

theorem sorted_note (hs : w.pending.Sorted) : (w.note reported now).pending.Sorted := by
  simp only [note]
  generalize reported.filter _ = noted
  generalize w.pending = pending at hs
  induction noted generalizing pending with
  | nil => exact hs
  | cons path noted ih => exact ih _ (hs.insert path now)

/-! What is read. -/

theorem read_path {file : LayoutFile} (h : LayoutFile.read files path = .ok file) :
    file.path = path := by
  rw [LayoutFile.read] at h
  split at h
  · cases h
  · split at h
    · cases h
    · obtain ⟨source, -, h⟩ := bind_eq_ok h
      cases h
      rfl

theorem reads_iff :
    (∃ changed, paths.mapM (LayoutFile.read files) = .ok changed) ↔
      ∀ path ∈ paths, ∃ file, LayoutFile.read files path = .ok file := by
  induction paths with
  | nil => exact iff_of_true ⟨[], rfl⟩ fun path hpath => absurd hpath List.not_mem_nil
  | cons path paths ih =>
    rw [List.forall_mem_cons, ← ih, List.mapM_cons]
    constructor
    · rintro ⟨changed, h⟩
      obtain ⟨file, hfile, h⟩ := bind_eq_ok h
      obtain ⟨rest, hrest, -⟩ := bind_eq_ok h
      exact ⟨⟨file, hfile⟩, ⟨rest, hrest⟩⟩
    · rintro ⟨⟨file, hfile⟩, ⟨rest, hrest⟩⟩
      exact ⟨file :: rest, by rw [hfile, hrest]; rfl⟩

theorem paths_of_reads (h : paths.mapM (LayoutFile.read files) = .ok changed) :
    changed.map (·.path) = paths := by
  induction paths generalizing changed with
  | nil =>
    cases h
    rfl
  | cons path paths ih =>
    rw [List.mapM_cons] at h
    obtain ⟨file, hfile, h⟩ := bind_eq_ok h
    obtain ⟨rest, hrest, h⟩ := bind_eq_ok h
    cases h
    rw [List.map_cons, read_path hfile, ih hrest]

/-- After a poll a path is among the files that were read, or pending. -/
def Kept (polled : Except LoadError (List LayoutFile) × Watch) (path : String) : Prop :=
  (∃ changed, polled.1 = .ok changed ∧ ∃ file ∈ changed, file.path = path) ∨
    polled.2.pending.contains path

theorem kept_iff (hs : w.pending.Sorted) (hpath : (w.note reported now).pending.contains path) :
    Kept (w.poll files reported now) path ↔
      (path ∈ (w.note reported now).due now →
        ∀ other ∈ (w.note reported now).due now,
          ∃ file, LayoutFile.read files other = .ok file) := by
  rw [← reads_iff]
  constructor
  · rintro (⟨changed, hchanged, -⟩ | hpending) hdue
    · exact ⟨changed, hchanged⟩
    · exact absurd hdue ((contains_forgetDue (sorted_note hs)).mp hpending).2
  · intro hreads
    by_cases hdue : path ∈ (w.note reported now).due now
    · obtain ⟨changed, hchanged⟩ := hreads hdue
      rw [← paths_of_reads hchanged] at hdue
      exact .inl ⟨changed, hchanged, List.mem_map.mp hdue⟩
    · exact .inr ((contains_forgetDue (sorted_note hs)).mpr ⟨hpath, hdue⟩)

end Watch

namespace LiveSimulation
variable {live : LiveSimulation} {files : Files} {reported : List String} {now : Nanos}

theorem reloadAll_applied (live : LiveSimulation) (batch : List LayoutFile) :
    ∃ applied left, batch = applied ++ left ∧
      live.sim.Applied applied (live.reloadAll batch).2.sim ∧
      (∀ file ∈ applied, live.sim.Admits file) ∧
      (∀ file ∈ left.head?, ¬live.sim.Admits file) ∧
      (live.reloadAll batch).2.watch = live.watch := by
  induction batch generalizing live with
  | nil => exact ⟨[], [], rfl, .nil, by simp, by simp, rfl⟩
  | cons file rest ih =>
    rw [reloadAll]
    have hreloads := Edit.reloads file live.sim
    generalize (Edit.reload file).perform live.sim = result at hreloads
    cases hreloads with
    | refused hn hfixed hclass =>
      refine ⟨[], file :: rest, rfl, .nil, by simp, ?_, rfl⟩
      rintro refused hrefused hadmits
      cases hrefused
      exact hclass (hadmits _ hn hfixed)
    | @loaded after hadmits hafter =>
      obtain ⟨applied, left, rfl, happlied, hgood, hleft, hwatch⟩ :=
        ih ({ live with sim := after }.record file.report)
      refine ⟨file :: applied, left, rfl, .cons hadmits hafter happlied, ?_, ?_, hwatch⟩
      · refine List.forall_mem_cons.mpr ⟨hadmits, fun other hother => ?_⟩
        exact (hafter.admits_iff hadmits).mp (hgood other hother)
      · intro other hother hother'
        exact hleft other hother ((hafter.admits_iff hadmits).mpr hother')

theorem check_eq_reloadAll {changed : List LayoutFile}
    (h : (live.watch.poll files reported now).1 = .ok changed) :
    (live.check files reported now).2 =
      ({ live with watch := (live.watch.poll files reported now).2 }.reloadAll changed).2 := by
  have hpoll : live.watch.poll files reported now =
      (.ok changed, (live.watch.poll files reported now).2) := Prod.ext h rfl
  rw [check, hpoll]
  simp only
  generalize LiveSimulation.reloadAll _ changed = result
  obtain ⟨answer, after⟩ := result
  cases answer <;> rfl

/-- What is lost when the files that are due are reloaded. A pending path is kept by a poll unless
it is due and one of those that are due cannot be read. Of the files that a poll has read, those
are lost that stand at or after the first one that is not admitted. -/
theorem nothing_lost_iff (hs : live.watch.pending.Sorted) :
    (∀ path, (live.watch.note reported now).pending.contains path →
      (Watch.Kept (live.watch.poll files reported now) path ↔
        (path ∈ (live.watch.note reported now).due now →
          ∀ other ∈ (live.watch.note reported now).due now,
            ∃ file, LayoutFile.read files other = .ok file))) ∧
    ∀ changed, (live.watch.poll files reported now).1 = .ok changed →
      ∃ applied lost, changed = applied ++ lost ∧
        live.sim.Applied applied (live.check files reported now).2.sim ∧
        (∀ file ∈ lost, ¬(live.check files reported now).2.watch.Offers file.path) ∧
        (∀ file ∈ lost.head?, ¬live.sim.Admits file) ∧
        (lost = [] ↔ ∀ file ∈ changed, live.sim.Admits file) := by
  refine ⟨fun path hpath => Watch.kept_iff hs hpath, fun changed hchanged => ?_⟩
  rw [check_eq_reloadAll hchanged]
  obtain ⟨applied, lost, rfl, happlied, hgood, hlost, hwatch⟩ :=
    reloadAll_applied { live with watch := (live.watch.poll files reported now).2 } changed
  refine ⟨applied, lost, rfl, happlied, fun file hfile => ?_, hlost, ?_, fun hall => ?_⟩
  · have hdue : file.path ∈ (live.watch.note reported now).due now := by
      rw [← Watch.paths_of_reads hchanged]
      exact List.mem_map_of_mem (List.mem_append_right applied hfile)
    rw [hwatch, Watch.offers_iff]
    intro hpending
    exact ((Watch.contains_forgetDue (Watch.sorted_note hs)).mp hpending).2 hdue
  · rintro rfl file hfile
    exact hgood file (by simpa using hfile)
  · cases lost with
    | nil => rfl
    | cons file rest => exact absurd (hall file (by simp)) (hlost file rfl)

def shelf (first : ByteArray) : Files :=
  { entries := [(["d"], .directory), (["d", "0-4x1.qasm"], .file first),
      (["d", "1-4x1.qasm"], .file "INC".toUTF8)] }

def alert : LiveSimulation :=
  { sim := .vacant
    watch := { directory := "d", pending := ⟨[("d/0-4x1.qasm", 0), ("d/1-4x1.qasm", 0)]⟩ } }

theorem nothing_lost_alert :
    ∃ first second : LayoutFile,
      (alert.watch.poll (shelf "DEC".toUTF8) ["d/2-4x1.qasm"] (.ofMillis 100)).1 =
        .ok [first, second] ∧
      (∀ path ∈ ["d/0-4x1.qasm", "d/1-4x1.qasm", "d/2-4x1.qasm"], Watch.Kept
        (alert.watch.poll (shelf "DEC".toUTF8) ["d/2-4x1.qasm"] (.ofMillis 100)) path) ∧
      alert.sim.Applied [first, second]
        (alert.check (shelf "DEC".toUTF8) ["d/2-4x1.qasm"] (.ofMillis 100)).2.sim := by
  have hs : alert.watch.pending.Sorted := List.pairwise_pair.mpr (by decide)
  have hpoll : (alert.watch.poll (shelf "DEC".toUTF8) ["d/2-4x1.qasm"] (.ofMillis 100)).1 =
      .ok [⟨0, .tiny, "d/0-4x1.qasm", "DEC"⟩, ⟨1, .tiny, "d/1-4x1.qasm", "INC"⟩] := by
    decide +kernel
  obtain ⟨hkept, hlost⟩ :=
    @nothing_lost_iff alert (shelf "DEC".toUTF8) ["d/2-4x1.qasm"] (.ofMillis 100) hs
  obtain ⟨applied, lost, hchanged, happlied, -, -, hnone⟩ := hlost _ hpoll
  have hadmits : ∀ file : LayoutFile, alert.sim.Admits file := by
    intro file n hn
    cases hn
  obtain rfl := hnone.mpr fun file _ => hadmits file
  rw [List.append_nil] at hchanged
  refine ⟨_, _, hpoll, fun path hpath => ?_, hchanged ▸ happlied⟩
  have hpending : (alert.watch.note ["d/2-4x1.qasm"] (.ofMillis 100)).pending.contains path := by
    revert path
    decide
  exact (hkept path hpending).mpr fun _ => Watch.reads_iff.mp ⟨_, hpoll⟩

/-- The first file is no text, and the second, which could be read, is lost with it. -/
theorem alert_loses_second :
    "d/1-4x1.qasm" ∈ alert.watch.due (.ofMillis 100) ∧
      LayoutFile.read (shelf ⟨#[255]⟩) "d/1-4x1.qasm" =
        .ok ⟨1, .tiny, "d/1-4x1.qasm", "INC"⟩ ∧
      ¬Watch.Kept (alert.watch.poll (shelf ⟨#[255]⟩) [] (.ofMillis 100)) "d/1-4x1.qasm" := by
  have hpoll : (alert.watch.poll (shelf ⟨#[255]⟩) [] (.ofMillis 100)).1 =
      .error (.fileUnreadable "d/0-4x1.qasm" .notText) := by
    decide +kernel
  refine ⟨by decide +kernel, by decide +kernel, ?_⟩
  rintro (⟨changed, hchanged, -⟩ | hpending)
  · cases hpoll.symm.trans hchanged
  · revert hpending
    decide +kernel

end LiveSimulation
end Lockstep
