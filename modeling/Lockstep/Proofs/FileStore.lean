import Lockstep.Files.Store
import Lockstep.Proofs.Listing
import Mathlib.Data.List.Nodup
import Mathlib.Data.List.Perm.Basic
import Mathlib.Data.List.TakeWhile

/-!
What stays of a store of files when something is put into it. A directory stays a directory, so a
path that led somewhere leads there still; a store in which every place has one entry stays one; and
then the order of its entries says nothing but the order in which they are listed.
-/
namespace Lockstep

namespace Text
variable {separates : Char → Bool} {mark : Char}

theorem pieces_ne_nil (s : List Char) : pieces separates s ≠ [] := by
  cases s with
  | nil => exact List.cons_ne_nil _ _
  | cons c s =>
    rw [pieces]
    split
    · exact List.cons_ne_nil _ _
    · split <;> exact List.cons_ne_nil _ _

theorem pieces_append (hmark : separates mark) (s rest : List Char) :
    pieces separates (s ++ mark :: rest) = pieces separates s ++ pieces separates rest := by
  induction s with
  | nil => simp [pieces, hmark]
  | cons c s ih =>
    rw [List.cons_append, pieces, pieces, ih]
    split
    · rfl
    · cases hs : pieces separates s with
      | nil => exact absurd hs (pieces_ne_nil s)
      | cons piece more => rfl

end Text

namespace Path
variable {directory name : String}

structure IsName (name : String) : Prop where
  whole : '/' ∉ name.toList
  leads : isIdle name = false
  ahead : name ≠ ".."

theorem pieces_name (h : IsName name) : Text.pieces (· == '/') name.toList = [name.toList] :=
  Text.pieces_last fun _ hc => beq_eq_false_iff_ne.mpr fun hslash => h.whole (hslash ▸ hc)

theorem pieces_join (hname : IsName name) (hdirectory : directory ≠ "") :
    ∃ before, pieces (join directory name) = before ++ [name] ∧
      (pieces directory = before ∨ pieces directory = before ++ [""]) := by
  have hcut : ∀ s rest, Text.pieces (· == '/') (s ++ '/' :: rest) =
      Text.pieces (· == '/') s ++ Text.pieces (· == '/') rest := Text.pieces_append rfl
  rw [join]
  by_cases hlast : directory.toList.getLast? = some '/'
  · obtain ⟨front, hfront⟩ : ∃ front, directory.toList = front ++ ['/'] :=
      ⟨_, (List.dropLast_append_getLast? '/' hlast).symm⟩
    refine ⟨(Text.pieces (· == '/') front).map String.ofList, ?_, .inr ?_⟩
    · rw [if_pos (.inr hlast), pieces, String.toList_append, hfront, List.append_assoc,
        List.singleton_append, hcut, pieces_name hname]
      simp
    · rw [pieces, hfront, hcut]
      simp [Text.pieces]
  · refine ⟨pieces directory, ?_, .inl rfl⟩
    rw [if_neg (not_or.mpr ⟨hdirectory, hlast⟩), pieces, String.toList_append,
      String.toList_append, List.append_assoc]
    have hmiddle : "/".toList ++ name.toList = '/' :: name.toList := rfl
    rw [hmiddle, hcut, pieces_name hname]
    simp [pieces]

theorem fileName?_join (hname : IsName name) (hdirectory : directory ≠ "") :
    fileName? (join directory name) = some name := by
  obtain ⟨before, hpieces, -⟩ := pieces_join hname hdirectory
  rw [fileName?, names, hpieces, List.filter_append]
  simp [hname.leads, hname.ahead]

theorem isAbsolute_join (hdirectory : directory ≠ "") :
    isAbsolute (join directory name) = isAbsolute directory := by
  have hhead : ∀ rest : String,
      (directory ++ rest).toList.head? = directory.toList.head? := by
    intro rest
    rw [String.toList_append, List.head?_append_of_ne_nil]
    simpa using hdirectory
  rw [join, isAbsolute, isAbsolute]
  split_ifs
  · rw [hhead]
  · rw [String.append_assoc, hhead]

theorem join_injective (directory : String) : Function.Injective (join directory) := by
  intro a b h
  rw [join, join] at h
  split_ifs at h
  · exact (String.append_right_inj _).mp h
  · exact (String.append_right_inj _).mp h

end Path

namespace Files
variable {files made : Files} {p q spot : Place} {entry : Entry} {path text : String}

/-- No place has two entries. -/
def Tidy (files : Files) : Prop := (files.entries.map (·.1)).Nodup

theorem entry?_root : files.entry? [] = some .directory := if_pos rfl

theorem entry?_eq_lookup (h : p ≠ []) : files.entry? p = files.entries.lookup p := if_neg h

theorem lookup_replaced {es : List (Place × Entry)} :
    (es.map fun e => if e.1 = spot then (spot, entry) else e).lookup p =
      if p = spot then (es.lookup spot).map fun _ => entry else es.lookup p := by
  induction es with
  | nil => simp
  | cons e es ih =>
    obtain ⟨k, old⟩ := e
    by_cases hk : k = spot
    · subst hk
      by_cases hp : p = k
      · simp [hp]
      · simp [List.lookup_cons, beq_eq_false_iff_ne.mpr hp, ih, hp]
    · simp only [List.map_cons, hk, if_false, List.lookup_cons, ih]
      by_cases hp : p = k
      · simp [hp, hk]
      · simp [beq_eq_false_iff_ne.mpr hp, beq_eq_false_iff_ne.mpr (Ne.symm hk)]

theorem entry?_put (hspot : spot ≠ []) (p : Place) :
    Files.entry? (files.put spot entry) p = if p = spot then some entry else files.entry? p := by
  by_cases hp : p = []
  · rw [hp, entry?_root, entry?_root, if_neg hspot.symm]
  · rw [entry?_eq_lookup hp, entry?_eq_lookup hp, put]
    cases hold : files.entry? spot with
    | some old =>
      rw [entry?_eq_lookup hspot] at hold
      simp only [lookup_replaced, hold, Option.map_some]
    | none =>
      rw [entry?_eq_lookup hspot] at hold
      simp only [List.lookup_append]
      split_ifs with h
      · simp [h, hold]
      · simp [List.lookup_cons, beq_eq_false_iff_ne.mpr h]

theorem Tidy.put (h : files.Tidy) : (files.put spot entry).Tidy := by
  rw [Files.put]
  cases hold : files.entry? spot with
  | some old =>
    have hkeys : ∀ e : Place × Entry, (if e.1 = spot then (spot, entry) else e).1 = e.1 := by
      intro e
      split_ifs with he
      · exact he.symm
      · rfl
    simpa only [Tidy, List.map_map, Function.comp_def, hkeys] using h
  | none =>
    have hspot : spot ≠ [] := fun hroot => by
      rw [hroot, entry?_root] at hold
      cases hold
    rw [entry?_eq_lookup hspot, List.lookup_eq_none_iff] at hold
    have hnew : spot ∉ files.entries.map (·.1) := fun hmem => by
      obtain ⟨e, he, rfl⟩ := List.mem_map.mp hmem
      simpa using hold e he
    rw [Tidy, List.map_append]
    exact h.append (List.nodup_singleton spot) (List.disjoint_singleton.mpr hnew)

/-- What a store keeps when something is put into it. -/
structure Grows (before after : Files) : Prop where
  working : after.working = before.working
  directory : ∀ {p : Place}, before.entry? p = some .directory → after.entry? p = some .directory
  tidy : before.Tidy → after.Tidy

theorem Grows.refl (files : Files) : files.Grows files := ⟨rfl, id, id⟩

theorem Grows.trans {a b c : Files} (hab : a.Grows b) (hbc : b.Grows c) : a.Grows c :=
  ⟨hbc.working.trans hab.working, hbc.directory ∘ hab.directory, hbc.tidy ∘ hab.tidy⟩

theorem ne_root (h : files.entry? spot ≠ some .directory) : spot ≠ [] :=
  fun hroot => h (hroot ▸ entry?_root)

theorem grows_put (h : files.entry? spot ≠ some .directory) :
    files.Grows (files.put spot entry) := by
  refine ⟨?_, fun {p} hp => ?_, Tidy.put⟩
  · rw [put]
    split <;> rfl
  · have hne : p ≠ spot := fun hspot => h (hspot ▸ hp)
    rw [entry?_put (ne_root h), if_neg hne, hp]

/-! Where paths lead. -/

theorem directory_of_follow {name : String} {rest : List String}
    (h : files.follow p (name :: rest) = .ok q) : files.entry? p = some .directory := by
  rw [follow] at h
  split at h
  · cases h
  · cases h
  · assumption

theorem follow_cons (h : files.entry? p = some .directory) (name : String) (rest : List String) :
    files.follow p (name :: rest) =
      if Path.isIdle name then files.follow p rest
      else if name = ".." then files.follow p.dropLast rest
      else if longestName < name.utf8ByteSize then .error .nameTooLong
      else files.follow (p ++ [name]) rest := by
  rw [follow, h]

theorem Grows.follow {after : Files} (hg : files.Grows after) {names : List String}
    (h : files.follow p names = .ok q) : after.follow p names = .ok q := by
  induction names generalizing p with
  | nil => exact h
  | cons name rest ih =>
    have hp := directory_of_follow h
    rw [follow_cons hp] at h
    rw [follow_cons (hg.directory hp)]
    split_ifs at h ⊢
    · exact ih h
    · exact ih h
    · exact ih h

theorem follow_append (names rest : List String) :
    files.follow p (names ++ rest) = (files.follow p names).bind fun q => files.follow q rest := by
  induction names generalizing p with
  | nil => rfl
  | cons name names ih =>
    rw [List.cons_append, follow, follow]
    split
    · rfl
    · rfl
    · split_ifs
      · exact ih
      · exact ih
      · rfl
      · exact ih

theorem follow_idle (h : files.entry? p = some .directory) {names : List String}
    (hidle : ∀ name ∈ names, Path.isIdle name) : files.follow p names = .ok p := by
  induction names with
  | nil => rfl
  | cons name names ih =>
    obtain ⟨hname, hnames⟩ := List.forall_mem_cons.mp hidle
    rw [follow_cons h, if_pos hname, ih hnames]

theorem place_eq_ok :
    files.place path = .ok p ↔
      checkPath path = .ok () ∧ files.follow (files.start path) (Path.pieces path) = .ok p := by
  rw [place]
  constructor
  · intro h
    obtain ⟨⟨⟩, hcheck, h⟩ := bind_eq_ok h
    exact ⟨hcheck, h⟩
  · rintro ⟨hcheck, h⟩
    rw [hcheck]
    exact h

theorem Grows.start {after : Files} (hg : files.Grows after) (path : String) :
    after.start path = files.start path := by
  rw [Files.start, Files.start, hg.working]

theorem Grows.place {after : Files} (hg : files.Grows after) (h : files.place path = .ok p) :
    after.place path = .ok p := by
  obtain ⟨hcheck, h⟩ := place_eq_ok.mp h
  exact place_eq_ok.mpr ⟨hcheck, hg.start path ▸ hg.follow h⟩

theorem find_eq_ok :
    files.find path = .ok entry ↔ ∃ p, files.place path = .ok p ∧ files.entry? p = some entry := by
  rw [find]
  constructor
  · intro h
    obtain ⟨p, hp, h⟩ := bind_eq_ok h
    split at h
    · rename_i hentry
      cases h
      exact ⟨p, hp, hentry⟩
    · cases h
  · rintro ⟨p, hp, hentry⟩
    rw [hp]
    simp only [bind, Except.bind, hentry]
    rfl

theorem isFile_iff : files.isFile path ↔ ∃ bytes, files.find path = .ok (.file bytes) := by
  rw [isFile]
  split
  · rename_i bytes hfind
    exact iff_of_true rfl ⟨bytes, hfind⟩
  · rename_i hnot
    exact iff_of_false Bool.false_ne_true fun ⟨bytes, hfind⟩ => hnot bytes hfind

theorem isDirectory_iff : files.isDirectory path ↔ files.find path = .ok .directory := by
  rw [isDirectory]
  split
  · rename_i hfind
    exact iff_of_true rfl hfind
  · rename_i hnot
    exact iff_of_false Bool.false_ne_true hnot

/-! What is made and written. -/

theorem pieces_trimmed (path : String) :
    ∃ blanks, Path.pieces path = Path.trimmed path ++ blanks ∧
      ∀ name ∈ blanks, Path.isIdle name := by
  refine ⟨((Path.pieces path).reverse.takeWhile (· == "")).reverse, ?_, fun name hname => ?_⟩
  · rw [Path.trimmed, ← List.reverse_append, List.takeWhile_append_dropWhile, List.reverse_reverse]
  · have hempty := List.mem_takeWhile_imp (List.mem_reverse.mp hname)
    simp [Path.isIdle, hempty]

theorem makeDirectory_eq_ok (h : files.makeDirectory path = .ok made) :
    files.Grows made ∧ made.isDirectory path := by
  rw [makeDirectory] at h
  obtain ⟨⟨⟩, hcheck, h⟩ := bind_eq_ok h
  obtain ⟨p, hp, h⟩ := bind_eq_ok h
  split at h
  · cases h
  · rename_i hnone
    cases h
    have hfree : files.entry? p ≠ some .directory := by simp [hnone]
    have hgrows : files.Grows (files.put p .directory) := grows_put hfree
    have hentry : Files.entry? (files.put p .directory) p = some .directory := by
      rw [entry?_put (ne_root hfree), if_pos rfl]
    refine ⟨hgrows, isDirectory_iff.mpr (find_eq_ok.mpr ⟨p, place_eq_ok.mpr ⟨hcheck, ?_⟩, hentry⟩)⟩
    obtain ⟨blanks, hpieces, hidle⟩ := pieces_trimmed path
    rw [hpieces, follow_append, hgrows.start, hgrows.follow hp]
    exact follow_idle hentry hidle

inductive Attempted (files : Files) (path : String) : Except FileError Unit × Files → Prop
  | made {made : Files} (h : files.makeDirectory path = .ok made) :
      Attempted files path (.ok (), made)
  | there (h : files.isDirectory path) : Attempted files path (.ok (), files)
  | failed (cause : FileError) : Attempted files path (.error cause, files)

theorem attempted_of_error (files : Files) (path : String) (cause : FileError) :
    Attempted files path (if files.isDirectory path then .ok () else .error cause, files) := by
  split_ifs with h
  · exact .there h
  · exact .failed cause

theorem Attempted.grows {result : Except FileError Unit × Files}
    (h : files.Attempted path result) : files.Grows result.2 := by
  cases h with
  | made h => exact (makeDirectory_eq_ok h).1
  | there => exact .refl files
  | failed => exact .refl files

theorem Attempted.isDirectory (h : files.Attempted path (.ok (), made)) :
    made.isDirectory path := by
  cases h with
  | made h => exact (makeDirectory_eq_ok h).2
  | there h => exact h

/-- The innermost directory is attempted at once, or after the outer ones if one was missing. -/
inductive Climbed (files : Files) (path : String) (outer : List String) :
    Except FileError Unit × Files → Prop
  | direct {result : Except FileError Unit × Files} (h : files.Attempted path result) :
      Climbed files path outer result
  | after {between : Files} {result : Except FileError Unit × Files}
      (houter : files.makeDirectories outer = (.ok (), between))
      (h : between.Attempted path result) : Climbed files path outer result
  | failed {between : Files} {cause : FileError}
      (houter : files.makeDirectories outer = (.error cause, between)) :
      Climbed files path outer (.error cause, between)

theorem climbed (files : Files) (path : String) (outer : List String) :
    files.Climbed path outer (files.makeDirectories (path :: outer)) := by
  cases hmake : files.makeDirectory path with
  | ok made =>
    simp only [makeDirectories, hmake]
    exact .direct (.made hmake)
  | error cause =>
    cases cause with
    | notFound =>
      simp only [makeDirectories, hmake]
      cases houter : files.makeDirectories outer with
      | mk answer between =>
        cases answer with
        | error cause => exact .failed houter
        | ok =>
          refine .after houter ?_
          simp only
          cases hagain : between.makeDirectory path with
          | ok made => exact .made hagain
          | error cause => exact attempted_of_error between path cause
    | _ =>
      simp only [makeDirectories, hmake]
      exact .direct (attempted_of_error files path _)

theorem grows_makeDirectories (files : Files) (paths : List String) :
    files.Grows (files.makeDirectories paths).2 := by
  induction paths with
  | nil => exact .refl files
  | cons path outer ih =>
    have hclimbed := files.climbed path outer
    generalize files.makeDirectories (path :: outer) = result at hclimbed
    cases hclimbed with
    | direct h => exact h.grows
    | after houter h =>
      rw [houter] at ih
      exact ih.trans h.grows
    | failed houter =>
      rw [houter] at ih
      exact ih

theorem createDirectory_eq_ok (hpath : path ≠ "")
    (h : files.createDirectory path = (.ok (), made)) :
    files.Grows made ∧ made.isDirectory path := by
  rw [createDirectory, if_neg hpath] at h
  have hgrows := files.grows_makeDirectories (path :: Path.enclosing path)
  have hclimbed := files.climbed path (Path.enclosing path)
  rw [h] at hgrows hclimbed
  refine ⟨hgrows, ?_⟩
  cases hclimbed with
  | direct h => exact h.isDirectory
  | after _ h => exact h.isDirectory

theorem write_eq_ok {after : Files} (h : files.write path text = .ok after) :
    ∃ p, files.place path = .ok p ∧ files.entry? p ≠ some .directory ∧
      after = files.put p (.file text.toUTF8) := by
  rw [write] at h
  obtain ⟨p, hp, h⟩ := bind_eq_ok h
  split at h
  · cases h
  · rename_i hnot
    cases h
    exact ⟨p, hp, hnot, rfl⟩

theorem read_eq_ok (h : files.find path = .ok (.file text.toUTF8)) :
    files.read path = .ok text := by
  have htext : String.fromUTF8? text.toUTF8 = some text := dif_pos text.isValidUTF8
  simp only [read, h, bind, Except.bind, htext]
  rfl

/-! What is listed. -/

/-- The same files, listed in whatever order. -/
def Relisted (files listed : Files) : Prop :=
  listed.working = files.working ∧ listed.entries.Perm files.entries

theorem Relisted.symm {listed : Files} (h : files.Relisted listed) : listed.Relisted files :=
  ⟨h.1.symm, h.2.symm⟩

theorem Relisted.tidy {listed : Files} (h : files.Relisted listed) (ht : files.Tidy) :
    listed.Tidy := by
  have hkeys := h.2.map Prod.fst
  exact hkeys.nodup_iff.mpr ht

theorem Tidy.lookup_eq_some_iff (h : files.Tidy) :
    files.entries.lookup p = some entry ↔ (p, entry) ∈ files.entries := by
  rw [Tidy] at h
  generalize files.entries = es at h
  induction es with
  | nil => simp
  | cons e es ih =>
    obtain ⟨k, old⟩ := e
    rw [List.map_cons, List.nodup_cons] at h
    rw [List.lookup_cons, List.mem_cons, ← ih h.2]
    by_cases hp : p = k
    · subst hp
      have hnone : es.lookup p = none := by
        rw [List.lookup_eq_none_iff]
        intro e he
        simpa using fun hk => h.1 (List.mem_map.mpr ⟨e, he, hk.symm⟩)
      simp [hnone, eq_comm]
    · simp [beq_eq_false_iff_ne.mpr hp, hp]

theorem Relisted.same {listed : Files} (h : files.Relisted listed) (ht : files.Tidy) (p : Place) :
    listed.entry? p = files.entry? p := by
  by_cases hp : p = []
  · rw [hp, entry?_root, entry?_root]
  · rw [entry?_eq_lookup hp, entry?_eq_lookup hp]
    refine Option.ext fun entry => ?_
    rw [(h.tidy ht).lookup_eq_some_iff, ht.lookup_eq_some_iff, h.2.mem_iff]

theorem Relisted.grows {listed : Files} (h : files.Relisted listed) (ht : files.Tidy) :
    files.Grows listed :=
  ⟨h.1, fun {p} hp => (h.same ht p).trans hp, h.tidy⟩

theorem Relisted.find {listed : Files} (h : files.Relisted listed) (ht : files.Tidy)
    (hfind : files.find path = .ok entry) : listed.find path = .ok entry := by
  obtain ⟨p, hp, hentry⟩ := find_eq_ok.mp hfind
  exact find_eq_ok.mpr ⟨p, (h.grows ht).place hp, (h.same ht p).trans hentry⟩

theorem name_eq_some {name : String} :
    (if spot.dropLast = p then spot.getLast? else none) = some name ↔ spot = p ++ [name] := by
  constructor
  · intro h
    split_ifs at h with hp
    rw [← hp, List.dropLast_append_getLast? name h]
  · rintro rfl
    simp

theorem Tidy.mem_namesIn (h : files.Tidy) {name : String}
    (hentry : files.entry? (p ++ [name]) = some entry) : name ∈ files.namesIn p := by
  rw [entry?_eq_lookup (by simp), h.lookup_eq_some_iff] at hentry
  exact List.mem_filterMap.mpr ⟨_, hentry, name_eq_some.mpr rfl⟩

theorem Tidy.nodup_namesIn (h : files.Tidy) (p : Place) : (files.namesIn p).Nodup := by
  have hnames : files.namesIn p = (files.entries.map (·.1)).filterMap fun spot =>
      if spot.dropLast = p then spot.getLast? else none := by
    rw [namesIn, List.filterMap_map]
    rfl
  rw [hnames]
  refine h.filterMap fun a b name ha hb => ?_
  rw [name_eq_some.mp ha, name_eq_some.mp hb]

theorem list_eq_ok (h : files.place path = .ok p) (hp : files.entry? p = some .directory) :
    files.list path = .ok (files.namesIn p) := by
  simp only [list, h, bind, Except.bind, hp]
  rfl

theorem place_join {directory name : String} (hname : Path.IsName name)
    (hdirectory : directory ≠ "") (hp : files.place directory = .ok p)
    (hq : files.place (Path.join directory name) = .ok q) :
    q = p ++ [name] := by
  obtain ⟨-, hp⟩ := place_eq_ok.mp hp
  obtain ⟨-, hq⟩ := place_eq_ok.mp hq
  obtain ⟨before, hpieces, hbefore⟩ := Path.pieces_join hname hdirectory
  have hstart : files.start (Path.join directory name) = files.start directory := by
    rw [start, start, Path.isAbsolute_join hdirectory]
  rw [hstart, hpieces, follow_append] at hq
  obtain ⟨r, hr, hq⟩ := bind_eq_ok hq
  have hdir := directory_of_follow hq
  have hrp : r = p := by
    rcases hbefore with hbefore | hbefore
    · rw [hbefore, hr] at hp
      exact Except.ok.inj hp
    · rw [hbefore, follow_append, hr] at hp
      have hstay : files.follow r [""] = .ok r := follow_idle hdir (by simp [Path.isIdle])
      exact Except.ok.inj (hstay.symm.trans hp)
  rw [follow_cons hdir, hname.leads, if_neg Bool.false_ne_true, if_neg hname.ahead] at hq
  split_ifs at hq
  exact hrp ▸ (Except.ok.inj hq).symm

end Files
end Lockstep
