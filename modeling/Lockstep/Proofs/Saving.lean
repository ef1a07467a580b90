import Lockstep.Loading.Simulation
import Lockstep.Proofs.FileStore
import Lockstep.Proofs.Grammar
import Lockstep.Proofs.LayoutOfCode
import Lockstep.Proofs.Reloading

/-!
A layout that is saved to a directory and loaded from it. The files of the nodes are found there in
whatever order they are listed, each with the text of its node; placed on the puzzle they give back
every node as it is at rest.
-/
namespace Lockstep

theorem Path.withoutEnding?_append (stem ending : String) :
    Path.withoutEnding? ending (stem ++ ending) = some stem := by
  have hsuffix : ending.toList.isSuffixOf (stem ++ ending).toList = true := by
    rw [String.toList_append]
    exact List.isSuffixOf_iff_suffix.mpr (List.suffix_append _ _)
  have hlength : (stem ++ ending).length - ending.length = stem.toList.length := by
    rw [String.length_append, Nat.add_sub_cancel, String.length_toList]
  rw [Path.withoutEnding?, if_pos hsuffix, hlength, String.toList_append, List.take_left,
    String.ofList_toList]

namespace FileName

theorem ofText?_class (c : NodeClass) : NodeClass.ofText? c.name.toList = some c := by
  cases c <;> decide +kernel

theorem ofText?_text (n : FileName) : ofText? n.text = some n := by
  have hstem : Text.cutAt '-' (Text.numeral n.slot.toNat ++ "-" ++ n.nodeClass.name).toList =
      some (Text.digits n.slot.toNat, n.nodeClass.name.toList) := by
    rw [Text.cutAt_eq_some_iff]
    refine ⟨by simp [Text.numeral], fun hdash => ?_⟩
    cases Text.isDigit_of_mem_digits hdash
  rw [ofText?, text, Path.withoutEnding?_append]
  simp only [Option.bind_eq_bind, Option.bind_some, hstem, Text.natural?_digits,
    Text.uint8?_toNat, ofText?_class]
  rfl

theorem text_injective : Function.Injective text := fun m n h =>
  Option.some.inj ((ofText?_text m).symm.trans (h ▸ ofText?_text n))

theorem isName_text (n : FileName) : Path.IsName n.text := by
  have hread := ofText?_text n
  refine ⟨?_, ?_, ?_⟩
  · have hclass : ∀ c : NodeClass, '/' ∉ c.name.toList := by
      intro c
      cases c <;> decide
    have hdigits : '/' ∉ Text.digits n.slot.toNat := fun h => by
      cases Text.isDigit_of_mem_digits h
    simp [text, Text.numeral, programEnding, hclass, hdigits]
  · rw [Path.isIdle, Bool.or_eq_false_iff, beq_eq_false_iff_ne, beq_eq_false_iff_ne]
    constructor
    · intro h
      rw [h] at hread
      cases hread
    · intro h
      rw [h] at hread
      cases hread
  · intro h
    rw [h] at hread
    cases hread

end FileName

namespace Node

def fileName (n : Node) : String := (FileName.mk n.slot n.nodeClass).text

def file (directory : String) (n : Node) : LayoutFile :=
  ⟨n.slot, n.nodeClass, Path.join directory n.fileName, n.source⟩

theorem ofText?_fileName (n : Node) : FileName.ofText? n.fileName = some ⟨n.slot, n.nodeClass⟩ :=
  FileName.ofText?_text _

theorem isName_fileName (n : Node) : Path.IsName n.fileName := FileName.isName_text _

theorem slot_eq_of_fileName {m n : Node} (h : m.fileName = n.fileName) : m.slot = n.slot :=
  congrArg FileName.slot (FileName.text_injective h)

end Node

namespace Simulation
variable {sim : Simulation} {files after : Files} {directory : String} {p : Place}

theorem save_eq_ok {written : List (String × String)}
    (h : sim.save files directory = (.ok written, after)) :
    ∃ made, files.createDirectory directory = (.ok (), made) ∧
      writeAll made (sim.nodes.map (savedFile directory)) = (.ok (), after) := by
  rw [save] at h
  split at h
  · cases h
  · rename_i made hmade
    refine ⟨made, hmade, ?_⟩
    simp only at h
    split at h
    · rename_i hwritten
      cases h
      exact hwritten
    · cases h

/-- What is in a directory once the nodes are saved there. -/
structure Saved (files : Files) (directory : String) (p : Place) (ns : List Node) : Prop where
  tidy : files.Tidy
  place : files.place directory = .ok p
  holds : files.entry? p = some .directory
  path : ∀ n ∈ ns, files.place (Path.join directory n.fileName) = .ok (p ++ [n.fileName])
  text : ∀ n ∈ ns, files.entry? (p ++ [n.fileName]) = some (.file n.source.toUTF8)

theorem writeAll_eq_ok {ns : List Node} (hdirectory : directory ≠ "")
    (hslots : (ns.map Node.slot).Nodup) (hp : files.place directory = .ok p)
    (h : writeAll files (ns.map (savedFile directory)) = (.ok (), after)) :
    files.Grows after ∧
      (∀ n ∈ ns, after.place (Path.join directory n.fileName) = .ok (p ++ [n.fileName])) ∧
      (∀ n ∈ ns, after.entry? (p ++ [n.fileName]) = some (.file n.source.toUTF8)) ∧
      ∀ q, (∀ n ∈ ns, q ≠ p ++ [n.fileName]) → after.entry? q = files.entry? q := by
  induction ns generalizing files with
  | nil =>
    cases h
    exact ⟨.refl _, by simp, by simp, fun _ _ => rfl⟩
  | cons n ns ih =>
    obtain ⟨hfirst, hrest⟩ := List.nodup_cons.mp hslots
    have hother : ∀ m ∈ ns, p ++ [n.fileName] ≠ p ++ [m.fileName] := by
      intro m hm heq
      have hname : n.fileName = m.fileName := by simpa using heq
      exact hfirst (List.mem_map.mpr ⟨m, hm, (Node.slot_eq_of_fileName hname).symm⟩)
    rw [List.map_cons, savedFile, writeAll] at h
    split at h
    · rename_i next hwrite
      obtain ⟨q, hq, hfree, rfl⟩ := Files.write_eq_ok hwrite
      obtain rfl := Files.place_join n.isName_fileName hdirectory hp hq
      have hgrows : files.Grows (files.put (p ++ [n.fileName]) (.file n.source.toUTF8)) :=
        Files.grows_put hfree
      have hput : ∀ q, Files.entry? (files.put (p ++ [n.fileName]) (.file n.source.toUTF8)) q =
          if q = p ++ [n.fileName] then some (.file n.source.toUTF8) else files.entry? q :=
        Files.entry?_put (Files.ne_root hfree)
      obtain ⟨hafter, hpaths, htexts, hkept⟩ := ih hrest (hgrows.place hp) h
      refine ⟨hgrows.trans hafter, ?_, ?_, ?_⟩
      · exact List.forall_mem_cons.mpr ⟨(hgrows.trans hafter).place hq, hpaths⟩
      · refine List.forall_mem_cons.mpr ⟨?_, htexts⟩
        rw [hkept _ hother, hput, if_pos rfl]
      · intro q hne
        obtain ⟨hn, hns⟩ := List.forall_mem_cons.mp hne
        rw [hkept q hns, hput, if_neg hn]
    · cases h

theorem saved_of_save (hslots : (sim.nodes.map Node.slot).Nodup) (htidy : files.Tidy)
    (hdirectory : directory ≠ "") {written : List (String × String)}
    (h : sim.save files directory = (.ok written, after)) :
    ∃ p, Saved after directory p sim.nodes := by
  obtain ⟨made, hmade, hwritten⟩ := save_eq_ok h
  obtain ⟨hgrows, hthere⟩ := Files.createDirectory_eq_ok hdirectory hmade
  obtain ⟨p, hp, hentry⟩ := Files.find_eq_ok.mp (Files.isDirectory_iff.mp hthere)
  obtain ⟨hafter, hpath, htext, -⟩ := writeAll_eq_ok hdirectory hslots hp hwritten
  exact ⟨p, hafter.tidy (hgrows.tidy htidy), hafter.place hp, hafter.directory hentry, hpath, htext⟩

/-- The directory has no layout file but those of the nodes. -/
def HoldsOnly (sim : Simulation) (files : Files) (directory : String) : Prop :=
  ∀ names, files.list directory = .ok names → ∀ name ∈ names,
    files.isFile (Path.join directory name) → (FileName.ofPath? (Path.join directory name)).isSome →
    ∃ n ∈ sim.nodes, name = n.fileName

namespace Saved
variable {ns : List Node}

theorem relisted {listed : Files} (h : Saved files directory p ns)
    (hlisted : files.Relisted listed) : Saved listed directory p ns := by
  have hgrows := hlisted.grows h.tidy
  refine ⟨hlisted.tidy h.tidy, hgrows.place h.place, hgrows.directory h.holds, ?_, ?_⟩
  · exact fun n hn => hgrows.place (h.path n hn)
  · exact fun n hn => (hlisted.same h.tidy _).trans (h.text n hn)

theorem find (h : Saved files directory p ns) {n : Node} (hn : n ∈ ns) :
    files.find (Path.join directory n.fileName) = .ok (.file n.source.toUTF8) :=
  Files.find_eq_ok.mpr ⟨_, h.path n hn, h.text n hn⟩

theorem ofPath?_join (hdirectory : directory ≠ "") (n : Node) :
    FileName.ofPath? (Path.join directory n.fileName) = some ⟨n.slot, n.nodeClass⟩ := by
  rw [FileName.ofPath?, Path.fileName?_join n.isName_fileName hdirectory, Option.bind_some,
    n.ofText?_fileName]

theorem read (h : Saved files directory p ns) (hdirectory : directory ≠ "") {n : Node}
    (hn : n ∈ ns) :
    LayoutFile.read files (Path.join directory n.fileName) = .ok (n.file directory) := by
  simp only [LayoutFile.read, Path.fileName?_join n.isName_fileName hdirectory,
    n.ofText?_fileName, Files.read_eq_ok (h.find hn)]
  rfl

theorem readAll (h : Saved files directory p ns) (hdirectory : directory ≠ "")
    (done rest : List Node) (hrest : ∀ n ∈ rest, n ∈ ns)
    (hslots : ((done ++ rest).map Node.slot).Nodup) :
    LayoutFile.readAll files (done.map (Node.file directory))
      (rest.map fun n => Path.join directory n.fileName) =
      .ok ((done ++ rest).map (Node.file directory)) := by
  induction rest generalizing done with
  | nil => rw [List.append_nil]; rfl
  | cons n rest ih =>
    obtain ⟨hn, hns⟩ := List.forall_mem_cons.mp hrest
    have hnew : (done.map (Node.file directory)).find? (fun f => f.slot = n.slot) = none := by
      rw [List.find?_eq_none]
      intro f hf hslot
      obtain ⟨m, hm, rfl⟩ := List.mem_map.mp hf
      rw [List.map_append, List.nodup_append] at hslots
      exact hslots.2.2 _ (List.mem_map_of_mem hm) _ (.head _) (of_decide_eq_true hslot)
    have hsplit : done ++ n :: rest = (done ++ [n]) ++ rest := by simp
    rw [hsplit] at hslots ⊢
    rw [← ih (done ++ [n]) hns hslots, List.map_cons, LayoutFile.readAll, h.read hdirectory hn]
    simp only [bind, Except.bind]
    have hslot : (n.file directory).slot = n.slot := rfl
    rw [hslot, hnew, List.map_append]
    rfl

theorem pathsIn (h : Saved files directory p sim.nodes) (hdirectory : directory ≠ "")
    (hslots : (sim.nodes.map Node.slot).Nodup) (honly : sim.HoldsOnly files directory) :
    ∃ ns : List Node, ns.Perm sim.nodes ∧ LayoutFile.pathsIn files directory =
      .ok (ns.map fun n => Path.join directory n.fileName) := by
  have hlist : files.list directory = .ok (files.namesIn p) := Files.list_eq_ok h.place h.holds
  have hnodup : (sim.nodes.map fun n => Path.join directory n.fileName).Nodup := by
    refine List.pairwise_map.mpr ((List.pairwise_map.mp hslots).imp fun hne heq => hne ?_)
    exact Node.slot_eq_of_fileName (Path.join_injective directory heq)
  have hpaths := ((h.tidy.nodup_namesIn p).map (Path.join_injective directory)).filter fun path =>
    files.isFile path && (FileName.ofPath? path).isSome
  have hperm := (List.perm_ext_iff_of_nodup hpaths hnodup).mpr fun path => by
    rw [List.mem_filter, List.mem_map, List.mem_map, Bool.and_eq_true]
    constructor
    · rintro ⟨⟨name, hname, rfl⟩, hfile, hlayout⟩
      obtain ⟨n, hn, rfl⟩ := honly _ hlist name hname hfile hlayout
      exact ⟨n, hn, rfl⟩
    · rintro ⟨n, hn, rfl⟩
      have hfile := Files.isFile_iff.mpr ⟨_, h.find hn⟩
      have hlayout : (FileName.ofPath? (Path.join directory n.fileName)).isSome := by
        rw [ofPath?_join hdirectory]
        rfl
      exact ⟨⟨n.fileName, h.tidy.mem_namesIn (h.text n hn), rfl⟩, hfile, hlayout⟩
  obtain ⟨ns, hns, hperm⟩ := (congrFun (congrFun (List.eq_map_comp_perm _) _) _).mpr hperm
  refine ⟨ns, hperm, ?_⟩
  rw [LayoutFile.pathsIn, hlist, ← hns]
  rfl

theorem readDirectory (h : Saved files directory p sim.nodes) (hdirectory : directory ≠ "")
    (horder : InOrder sim.nodes) (honly : sim.HoldsOnly files directory) :
    LayoutFile.readDirectory files directory = .ok (sim.nodes.map (Node.file directory)) := by
  obtain ⟨ns, hperm, hpaths⟩ := h.pathsIn hdirectory horder.slots_nodup honly
  have hslots : (ns.map Node.slot).Nodup := (hperm.map _).nodup_iff.mpr horder.slots_nodup
  have hread := h.readAll hdirectory [] ns (fun n hn => hperm.mem_iff.mp hn) hslots
  have hsorted : (sim.nodes.map (Node.file directory)).Pairwise fun a b => a.slot < b.slot :=
    List.pairwise_map.mpr horder
  have hsort := Layout.eq_mergeSort hsorted (hperm.symm.map (Node.file directory))
  simp only [LayoutFile.readDirectory, hpaths, bind, Except.bind]
  rw [List.map_nil] at hread
  rw [hread, hsort]
  rfl

end Saved

theorem HoldsOnly.relisted {listed : Files} {ns : List Node} (h : sim.HoldsOnly files directory)
    (hs : Saved files directory p ns) (hlisted : files.Relisted listed) :
    sim.HoldsOnly listed directory := by
  intro names hnames name hname hfile hlayout
  have hthere := hs.relisted hlisted
  cases (Files.list_eq_ok hthere.place hthere.holds).symm.trans hnames
  have hbefore : name ∈ files.namesIn p := (hlisted.2.filterMap _).mem_iff.mp hname
  obtain ⟨bytes, hfind⟩ := Files.isFile_iff.mp hfile
  have hfile' := Files.isFile_iff.mpr ⟨bytes, hlisted.symm.find hthere.tidy hfind⟩
  exact h _ (Files.list_eq_ok hs.place hs.holds) name hbefore hfile' hlayout

end Simulation

/-! What the files give. -/

namespace Node

def Assembled (n : Node) : Prop :=
  n = Node.setProgram { nodeClass := n.nodeClass, slot := n.slot, fixed := n.fixed } n.source

theorem assembled_new (nodeClass : NodeClass) (slot : UInt8) (fixed : Bool) :
    Assembled ({ nodeClass, slot, fixed } : Node).reset := by
  have hlines : Text.lines "".toList = [] := rfl
  have hempty (capacity : Nat) : Lockstep.assemble "" capacity = ⟨[], .empty, 0, none⟩ := by
    simp only [Lockstep.assemble, hlines, List.zipIdx_nil, List.map_nil, List.length_nil,
      Nat.not_lt_zero, if_false]
    rfl
  simp only [Assembled, reset, setProgram, install, assemble, hempty]
  rfl

theorem assembled_setProgram (n : Node) (source : String) :
    Assembled (n.setProgram source).reset := by
  have hreset : (n.setProgram source).reset = n.setProgram source := reset_reset _
  rw [hreset]
  rfl

end Node

namespace Simulation
variable {sim : Simulation}

/-- In a simulation that is reached every node is at rest what its file makes of it. -/
theorem Reachable.file_node (h : Reachable sim) {n : Node} (hn : n ∈ sim.nodes)
    (directory : String) : (n.file directory).node n.fixed = n.reset := by
  have hall := (invariant_nodes (Node.enduring_reset Node.Assembled) Node.assembled_new
    fun n source _ => n.assembled_setProgram source).reachable h
  exact (hall n hn).symm

def Hosts (sim : Simulation) (file : LayoutFile) : Prop :=
  ∀ n, sim.node? file.slot = some n → n.fixed = true ∧ n.nodeClass = file.nodeClass

theorem Hosts.admits {file : LayoutFile} (h : sim.Hosts file) : sim.Admits file :=
  fun n hn _ => (h n hn).2

end Simulation

namespace Edit
open Simulation (Reloaded Applied)
variable {sim : Simulation} {file : LayoutFile}

theorem place_of_ready {ready : Simulation} {n : Node}
    (hperform : (place file).perform sim = (attempt (.loadFailed file.path) fun sim =>
      sim.setProgram file.slot file.source).perform ready)
    (hn : ready.node? file.slot = some n) (hclass : n.nodeClass = file.nodeClass)
    (hfixed : n.fixed = sim.fixedAt file.slot)
    (hothers : ∀ slot ≠ file.slot, ready.node? slot = sim.node? slot) :
    ∃ after, (place file).perform sim = (.ok (), after) ∧ sim.Reloaded file after := by
  obtain ⟨after, hset, hnodes⟩ := perform_setProgram hn hclass (.loadFailed file.path)
  have hedited : sim.Edited ((place file).perform sim).2 := edits_place file sim
  rw [hperform, hset] at hedited ⊢
  exact ⟨after, rfl, reloaded_of_ready hedited hnodes hfixed hothers⟩

theorem place_ok (h : sim.Hosts file) :
    ∃ after, (place file).perform sim = (.ok (), after) ∧ sim.Reloaded file after := by
  cases hn : sim.node? file.slot with
  | none =>
    obtain ⟨ready, hadd, hnodes⟩ := perform_add_next (attempt (.loadFailed file.path) fun sim =>
      sim.setProgram file.slot file.source) hn
    refine place_of_ready ?_ ((hnodes _).trans (if_pos rfl)) rfl ?_ fun slot hslot =>
      (hnodes slot).trans (if_neg hslot)
    · rw [← hadd, place, perform_bind, perform_get]
      simp only [hn]
    · rw [Simulation.fixedAt, hn]
      rfl
  | some n =>
    obtain ⟨hfixed, hclass⟩ := h n hn
    refine place_of_ready ?_ hn hclass ?_ fun _ _ => rfl
    · rw [place, perform_bind, perform_get]
      simp only [hn, hfixed, hclass, and_self, if_true]
    · rw [Simulation.fixedAt, hn]
      rfl

theorem applyLayout_ok {batch : List LayoutFile} (hslots : (batch.map (·.slot)).Nodup)
    (h : ∀ file ∈ batch, sim.Hosts file) :
    ∃ after, (applyLayout batch).perform sim = (.ok (), after) ∧ sim.Applied batch after := by
  induction batch generalizing sim with
  | nil => exact ⟨sim, rfl, .nil⟩
  | cons file rest ih =>
    obtain ⟨hfirst, hrest⟩ := List.nodup_cons.mp hslots
    obtain ⟨hfile, hfiles⟩ := List.forall_mem_cons.mp h
    obtain ⟨next, hplace, hnext⟩ := place_ok hfile
    have hhosts : ∀ other ∈ rest, next.Hosts other := by
      intro other hother n hn
      have hslot : other.slot ≠ file.slot := fun heq =>
        hfirst (List.mem_map.mpr ⟨other, hother, heq⟩)
      rw [hnext.others _ hslot] at hn
      exact hfiles other hother n hn
    obtain ⟨after, happly, hafter⟩ := ih hrest hhosts
    refine ⟨after, ?_, .cons hfile.admits hnext hafter⟩
    rw [applyLayout, perform_bind, hplace]
    exact happly

end Edit

namespace Simulation
variable {sim bare : Simulation} {settings : Settings} {n : Node}

theorem fixedAt_ofPuzzle (hbare : ofPuzzle sim.puzzle settings = .ok bare)
    (h : Placed sim.puzzle sim.nodes) (hn : n ∈ sim.nodes) : bare.fixedAt n.slot = n.fixed := by
  rw [fixedAt, ofPuzzle_node? hbare, h.fixedNodes_eq hn]
  cases n.fixed <;> rfl

theorem hosts_file (hbare : ofPuzzle sim.puzzle settings = .ok bare)
    (h : Placed sim.puzzle sim.nodes) (hn : n ∈ sim.nodes) (directory : String) :
    bare.Hosts (n.file directory) := by
  intro m hm
  have hnode : bare.node? (n.file directory).slot = _ := ofPuzzle_node? hbare n.slot
  rw [hnode, h.fixedNodes_eq hn] at hm
  split_ifs at hm
  · cases hm
    exact ⟨rfl, rfl⟩
  · cases hm

theorem ofFiles_saved (h : Reachable sim) (settings : Settings) (directory : String) :
    ∃ copy, ofFiles sim.puzzle settings (sim.nodes.map (Node.file directory)) = .ok copy ∧
      ∀ slot, copy.node? slot = (sim.node? slot).map Node.reset := by
  have hplaced := h.placed
  obtain ⟨bare, hbare⟩ : ∃ bare, ofPuzzle sim.puzzle settings = .ok bare :=
    ⟨_, if_pos hplaced.few⟩
  have hslots : ((sim.nodes.map (Node.file directory)).map (·.slot)).Nodup := by
    rw [List.map_map]
    exact hplaced.order.slots_nodup
  obtain ⟨copy, happly, hcopy⟩ := Edit.applyLayout_ok hslots fun file hfile => by
    obtain ⟨n, hn, rfl⟩ := List.mem_map.mp hfile
    exact hosts_file hbare hplaced hn directory
  refine ⟨copy, ?_, fun slot => ?_⟩
  · rw [Simulation.ofFiles, hbare]
    simp only [Except.mapError, bind, Except.bind, happly]
    rfl
  · have hfind : (sim.nodes.map (Node.file directory)).find? (fun f => f.slot = slot) =
        (sim.node? slot).map (Node.file directory) := by
      rw [List.find?_map]
      rfl
    rw [hcopy.node? hslots slot, hfind]
    cases hn : sim.node? slot with
    | none =>
      cases hm : bare.node? slot with
      | none => rfl
      | some m =>
        obtain ⟨hmem, rfl⟩ := node?_eq_some hm
        obtain ⟨n, hmem', hslot⟩ := exists_slot_of_bare hbare hplaced hmem
        exact absurd hslot (node?_eq_none hn n hmem')
    | some n =>
      obtain ⟨hmem, rfl⟩ := node?_eq_some hn
      simp only [Option.map_some, Option.some_or]
      rw [fixedAt_ofPuzzle hbare hplaced hmem, h.file_node hmem]

/-- Saving a layout and loading it loses nothing, unless the path is empty, which is saved to but
cannot be loaded from. The directory has no other layout files; in whatever order it lists its
files, they are loaded as one for each node in the order of slots, and placed on the puzzle they
give in every slot the node of that slot at rest. -/
theorem saved_layout_loads {files after listed : Files} {directory : String}
    {written : List (String × String)} (hreach : Reachable sim) (htidy : files.Tidy)
    (hsave : sim.save files directory = (.ok written, after))
    (honly : sim.HoldsOnly after directory) (hlisted : after.Relisted listed)
    (settings : Settings) :
    (directory = "" → LayoutFile.readDirectory listed directory =
      .error (.directoryUnreadable directory .notFound)) ∧
    (directory ≠ "" → ∃ layout, LayoutFile.readDirectory listed directory = .ok layout ∧
      layout = sim.nodes.map (Node.file directory) ∧
      (layout.Pairwise fun a b => a.slot < b.slot) ∧
      ∃ copy, ofFiles sim.puzzle settings layout = .ok copy ∧
        ∀ slot, copy.node? slot = (sim.node? slot).map Node.reset) := by
  refine ⟨fun hempty => hempty ▸ rfl, fun hdirectory => ?_⟩
  have horder := hreach.placed.order
  obtain ⟨p, hsaved⟩ := saved_of_save horder.slots_nodup htidy hdirectory hsave
  have hread := (hsaved.relisted hlisted).readDirectory hdirectory horder
    (honly.relisted hsaved hlisted)
  exact ⟨_, hread, rfl, List.pairwise_map.mpr horder, ofFiles_saved hreach settings directory⟩

def bench : Simulation :=
  { puzzle := { echo.puzzle with fixedNodes := [.tiny] }
    settings := {}
    nodes := [{ nodeClass := .tiny, slot := 0, fixed := true }] }

def crammed : Simulation :=
  bench.afterAll
    [.setProgram 0 "top: JMP top", .addNode .small 10,
      .setProgram 10 "JMP on", .addNode .small 2, .setProgram 2 "INC", .start, .tick]

def drawer : Files :=
  { entries := [(["out"], .directory), (["out", "0-4x1.qasm"], .file "NOP".toUTF8),
      (["out", "5-4x1.qasm"], .directory), (["out", "notes"], .file "INC".toUTF8)] }

theorem reachable_crammed : Reachable crammed := by
  have hbench : ofPuzzle bench.puzzle {} = .ok bench := rfl
  exact (Reachable.ofPuzzle hbench).afterAll _

theorem saved_layout_loads_crammed :
    Reachable crammed ∧ drawer.Tidy ∧
      ∃ written after, crammed.save drawer "out" = (.ok written, after) ∧
        crammed.HoldsOnly after "out" ∧
        ∃ layout copy, LayoutFile.readDirectory
            { after with entries := after.entries.reverse } "out" = .ok layout ∧
          layout.map (·.path) = ["out/0-4x1.qasm", "out/2-8x3.qasm", "out/10-8x3.qasm"] ∧
          ofFiles crammed.puzzle {} layout = .ok copy ∧
          ∀ slot, copy.node? slot = (crammed.node? slot).map Node.reset := by
  have htidy : drawer.Tidy := by
    rw [Files.Tidy]
    decide
  obtain ⟨after, hsave, honly⟩ : ∃ after,
      crammed.save drawer "out" = (.ok (crammed.nodes.map (savedFile "out")), after) ∧
        crammed.HoldsOnly after "out" := by
    have hok : (crammed.save drawer "out").1 = .ok (crammed.nodes.map (savedFile "out")) := by
      decide +kernel
    have hlist : (crammed.save drawer "out").2.list "out" =
        .ok ["0-4x1.qasm", "5-4x1.qasm", "notes", "2-8x3.qasm", "10-8x3.qasm"] := by
      decide +kernel
    refine ⟨(crammed.save drawer "out").2, by rw [← hok], fun names hnames => ?_⟩
    cases hlist.symm.trans hnames
    decide +kernel
  have hlisted : after.Relisted { after with entries := after.entries.reverse } :=
    ⟨rfl, List.reverse_perm _⟩
  obtain ⟨layout, hread, hlayout, -, copy, hcopy, hnodes⟩ :=
    (saved_layout_loads reachable_crammed htidy hsave honly hlisted {}).2 (by decide)
  refine ⟨reachable_crammed, htidy, _, after, hsave, honly, layout, copy, hread, ?_, hcopy, hnodes⟩
  rw [hlayout]
  decide +kernel

/-- The nodes are saved to the empty path, as the only layout files of the working directory, and
nothing is loaded from it. -/
theorem saved_layout_lost_crammed :
    Reachable crammed ∧ Files.Tidy {} ∧
      ∃ written after, crammed.save {} "" = (.ok written, after) ∧
        written.map (·.1) = ["0-4x1.qasm", "2-8x3.qasm", "10-8x3.qasm"] ∧
        after.list "." = .ok (written.map (·.1)) ∧
        crammed.HoldsOnly after "" ∧ crammed.HoldsOnly after "." ∧
        LayoutFile.readDirectory after "" = .error (.directoryUnreadable "" .notFound) := by
  have htidy : Files.Tidy {} := by
    rw [Files.Tidy]
    decide
  have hok : (crammed.save {} "").1 = .ok (crammed.nodes.map (savedFile "")) := by
    decide +kernel
  have hnames : (crammed.nodes.map (savedFile "")).map (·.1) =
      ["0-4x1.qasm", "2-8x3.qasm", "10-8x3.qasm"] := by
    decide +kernel
  have hlist : (crammed.save {} "").2.list "." =
      .ok ["0-4x1.qasm", "2-8x3.qasm", "10-8x3.qasm"] := by
    decide +kernel
  refine ⟨reachable_crammed, htidy, _, (crammed.save {} "").2, by rw [← hok], hnames,
    hlist.trans (congrArg Except.ok hnames.symm), fun names hlisted => ?_, fun names hlisted => ?_,
    rfl⟩
  · -- there is nothing to list at the empty path
    cases hlisted
  · cases hlist.symm.trans hlisted
    decide +kernel

end Simulation
end Lockstep
