import IceTouch.IcePatch2.Files

/-!
# The list of a tree

`getFileInfoSeq` walks through a tree and describes what is visible of it. Files with a suffix
that it ignores are removed on the way where they belong to no other file.
-/

namespace IceTouch.IcePatch2

open Bytes WireTypes SortedSets

def Entry.size (tools : Tools) : Entry → Nat
  | .directory => tools.directorySize
  | .file content _ => content.length

def removeOrphan (tools : Tools) (files : FileSystem) (path : Path) : Option FileSystem :=
  if ignoreSuffix (getWithoutSuffix path) then removeEntry files path
  else
    match files.lookup (getWithoutSuffix path) with
    | none => removeEntry files path
    | some entry => if entry.size tools = 0 then removeEntry files path else some files

def scanAll (scan : Path → FileSystem → Option (List FileInfo × FileSystem)) :
    List Path → FileSystem → Option (List FileInfo × FileSystem)
  | [], files => some ([], files)
  | path :: paths, files => do
      let (first, files) ← scan path files
      let (rest, files) ← scanAll scan paths files
      some (first ++ rest, files)

/-- To some depth below `path`. -/
def getFileInfoSeqInt (tools : Tools) (compress : Bool) :
    Nat → Path → FileSystem → Option (List FileInfo × FileSystem)
  | 0, _, files => some ([], files)
  | depth + 1, path, files =>
      if path = checksumFile ∨ path = logFile then some ([], files)
      else if ignoreSuffix path then do
        let files ← removeOrphan tools files path
        some ([], files)
      else
        match files.lookup path with
        | none => none
        | some .directory => do
            let (infos, after) ←
              scanAll (getFileInfoSeqInt tools compress depth) (readDirectory files path) files
            some (fileInfo tools compress path .directory :: infos, after)
        | some (.file content executable) =>
            some ([fileInfo tools compress path (.file content executable)], files)

/-- No path is deeper. -/
def depth (files : FileSystem) : Nat :=
  (files.keys.foldr (fun path depth => max path.length depth) 0) + 2

def getFileInfoSeq (order : FileOrder) (tools : Tools) (compress : Bool) (files : FileSystem) :
    Option (List FileInfo × FileSystem) := do
  let (infos, after) ← getFileInfoSeqInt tools compress (depth files) root files
  some (unique order.equal (sort order.less infos), after)

def SameVisible (files after : FileSystem) : Prop :=
  ∀ path, Visible path → after.lookup path = files.lookup path

/-- A sorted list that has one item for every visible path, with what `FileInfoLess` compares
of what is there. -/
structure Describes (order : FileOrder) (tools : Tools) (infos : List FileInfo)
    (files : FileSystem) : Prop where
  sorted : Sorted order.less infos
  sound : ∀ info ∈ infos, ∃ entry, Visible info.path ∧ files.lookup info.path = some entry ∧
    info.key = (fileInfo tools false info.path entry).key
  complete : ∀ path entry, Visible path → files.lookup path = some entry →
    ∃ info ∈ infos, info.key = (fileInfo tools false path entry).key

variable {tools : Tools} {compress : Bool} {files after : FileSystem} {path : Path}

theorem SameVisible.refl (files : FileSystem) : SameVisible files files := fun _ _ => rfl

theorem SameVisible.trans {middle : FileSystem} (first : SameVisible files middle)
    (second : SameVisible middle after) : SameVisible files after := by
  intro path visible
  rw [second path visible, first path visible]

theorem SameVisible.tree (same : SameVisible files after) (tree : Tree files) : Tree after where
  rooted := by
    rw [same root .root]
    exact tree.rooted
  above path entry visible found := by
    rw [same path visible] at found
    rw [same _ visible.parent]
    exact tree.above path entry visible found

theorem mem_readDirectory {other : Path} :
    other ∈ readDirectory files path ↔
      (∃ entry, files.lookup other = some entry) ∧ other ≠ root ∧ parent other = path := by
  rw [readDirectory, List.mem_filter, ← AList.mem_keys, ← AList.lookup_isSome,
    Option.isSome_iff_exists]
  simp

theorem remove_entry (removed : removeEntry files path = some after) :
    after = files.erase path := by
  unfold removeEntry at removed
  split at removed
  · cases removed
  · split at removed
    · exact (Option.some.inj removed).symm
    · cases removed
  · exact (Option.some.inj removed).symm

theorem erase_ignored (ignores : ignored path = true) : SameVisible files (files.erase path) := by
  intro other visible
  apply AList.lookup_erase_ne
  intro same
  rw [same] at visible
  exact not_visible_of_ignored ignores visible

theorem remove_orphan (ignores : ignored path = true)
    (removed : removeOrphan tools files path = some after) : SameVisible files after := by
  have gone (removed : removeEntry files path = some after) : SameVisible files after := by
    rw [remove_entry removed]
    exact erase_ignored ignores
  unfold removeOrphan at removed
  split at removed
  · exact gone removed
  · split at removed
    · exact gone removed
    · split at removed
      · exact gone removed
      · cases removed
        exact .refl files

def Finds (tools : Tools) (compress : Bool) (files after : FileSystem) (infos : List FileInfo) :
    Prop :=
  SameVisible files after ∧ ∀ info ∈ infos, ∃ path entry, Visible path ∧
    files.lookup path = some entry ∧ info = fileInfo tools compress path entry

variable {infos : List FileInfo} {sought : Path}

theorem Finds.append {middle : FileSystem} {others : List FileInfo}
    (first : Finds tools compress files middle infos)
    (second : Finds tools compress middle after others) :
    Finds tools compress files after (infos ++ others) := by
  refine ⟨first.1.trans second.1, ?_⟩
  intro info inside
  obtain one | two := List.mem_append.mp inside
  · exact first.2 info one
  · obtain ⟨path, entry, visible, found, made⟩ := second.2 info two
    rw [first.1 path visible] at found
    exact ⟨path, entry, visible, found, made⟩

theorem scan_all_finds {scan : Path → FileSystem → Option (List FileInfo × FileSystem)}
    {paths : List Path}
    (each : ∀ path ∈ paths, ∀ files infos after, scan path files = some (infos, after) →
      Finds tools compress files after infos)
    (scanned : scanAll scan paths files = some (infos, after)) :
    Finds tools compress files after infos ∧
      ∀ path ∈ paths, ∃ middle part rest, scan path middle = some (part, rest) ∧
        SameVisible files middle ∧ part ⊆ infos := by
  induction paths generalizing files infos with
  | nil =>
      cases scanned
      exact ⟨⟨.refl _, nofun⟩, nofun⟩
  | cons path paths ih =>
      simp only [scanAll, Option.bind_eq_bind, Option.bind_eq_some_iff, Prod.exists] at scanned
      obtain ⟨first, middle, one, rest, last, two, same⟩ := scanned
      cases same
      have head := each path List.mem_cons_self files first middle one
      obtain ⟨tail, found⟩ := ih
        (fun other inside => each other (List.mem_cons_of_mem path inside)) two
      refine ⟨head.append tail, ?_⟩
      intro other inside
      cases inside with
      | head => exact ⟨_, first, middle, one, .refl _, List.subset_append_left _ _⟩
      | tail _ later =>
          obtain ⟨start, part, after, scanned, unchanged, among⟩ := found other later
          exact ⟨start, part, after, scanned, head.1.trans unchanged,
            fun info inside => List.mem_append_right _ (among inside)⟩

theorem scan_finds {depth : Nat} (reached : path = root ∨ path ≠ root ∧ Visible (parent path))
    (scanned : getFileInfoSeqInt tools compress depth path files = some (infos, after)) :
    Finds tools compress files after infos := by
  induction depth generalizing path files infos after with
  | zero =>
      cases scanned
      exact ⟨.refl files, nofun⟩
  | succ depth ih =>
      rw [getFileInfoSeqInt] at scanned
      split at scanned
      · cases scanned
        exact ⟨.refl files, nofun⟩
      · next named =>
          split at scanned
          · next suffix =>
              simp only [Option.bind_eq_bind, Option.bind_eq_some_iff] at scanned
              obtain ⟨left, removed, same⟩ := scanned
              cases same
              have ignores : ignored path = true := by simp [ignored, suffix]
              exact ⟨remove_orphan ignores removed, nofun⟩
          · next plain =>
              have visible : Visible path := by
                obtain here | ⟨apart, above⟩ := reached
                · rw [here]
                  exact .root
                · have kept : ignored path = false := by
                    rw [not_or] at named
                    simp [ignored, named.1, named.2, plain]
                  exact .inside apart kept above
              split at scanned
              · cases scanned
              · next found =>
                  simp only [Option.bind_eq_bind, Option.bind_eq_some_iff, Prod.exists] at scanned
                  obtain ⟨rest, last, inner, same⟩ := scanned
                  cases same
                  have below := scan_all_finds (fun child inside files infos after scanned =>
                    ih (.inr ⟨(mem_readDirectory.mp inside).2.1, by
                      rw [(mem_readDirectory.mp inside).2.2]
                      exact visible⟩) scanned) inner
                  refine ⟨below.1.1, ?_⟩
                  intro info inside
                  cases inside with
                  | head => exact ⟨path, .directory, visible, found, rfl⟩
                  | tail _ later => exact below.1.2 info later
              · next content executable found =>
                  cases scanned
                  refine ⟨.refl files, ?_⟩
                  intro info inside
                  rw [List.mem_singleton.mp inside]
                  exact ⟨path, _, visible, found, rfl⟩

/-- A scan of this depth from `path` gets to `sought`. -/
inductive Covers : Nat → Path → Path → Prop
  | here {depth : Nat} {path : Path} : Covers (depth + 1) path path
  | child {depth : Nat} {path child sought : Path} (named : child ≠ root)
      (within : parent child = path) (rest : Covers depth child sought) :
      Covers (depth + 1) path sought

theorem Covers.snoc {depth : Nat} (named : sought ≠ root)
    (covers : Covers depth path (parent sought)) : Covers (depth + 1) path sought := by
  generalize upper : parent sought = above at covers
  induction covers with
  | here => exact .child named upper .here
  | child other within _ ih => exact .child other within (ih upper)

theorem Covers.deepen {depth : Nat} (covers : Covers depth path sought) {deeper : Nat}
    (more : depth ≤ deeper) : Covers deeper path sought := by
  induction covers generalizing deeper with
  | here =>
      obtain ⟨rest, rfl⟩ := Nat.exists_eq_add_of_le' more
      exact .here
  | child named within _ ih =>
      cases deeper with
      | zero => cases more
      | succ deeper => exact .child named within (ih (Nat.le_of_succ_le_succ more))

theorem covers_length (visible : Visible sought) : Covers (sought.length + 2) root sought := by
  induction visible with
  | root => exact .here
  | @inside sought named kept above ih =>
      obtain top | shorter := parent_length sought
      · have short : Covers 2 root sought := .child named top .here
        exact short.deepen (Nat.le_add_left 2 _)
      · exact (ih.snoc named).deepen (by omega)

variable {entry : Entry}

theorem covers_depth (visible : Visible sought) (found : files.lookup sought = some entry) :
    Covers (depth files) root sought := by
  apply (covers_length visible).deepen
  have inside : sought ∈ files.keys := by
    rw [← AList.mem_keys, ← AList.lookup_isSome, found]
    rfl
  have bound (paths : List Path) (inside : sought ∈ paths) :
      sought.length ≤ paths.foldr (fun path depth => max path.length depth) 0 := by
    induction paths with
    | nil => cases inside
    | cons path paths ih =>
        rw [List.foldr_cons]
        cases inside with
        | head => exact Nat.le_max_left _ _
        | tail _ later => exact (ih later).trans (Nat.le_max_right _ _)
  exact Nat.add_le_add_right (bound files.keys inside) 2

theorem Covers.passes {depth : Nat} (tree : Tree files) (covers : Covers depth path sought)
    (visible : Visible sought) (found : files.lookup sought = some entry) :
    Visible path ∧ ∃ entry, files.lookup path = some entry := by
  induction covers with
  | here => exact ⟨visible, entry, found⟩
  | child named within _ ih =>
      obtain ⟨seen, entry, there⟩ := ih visible found
      rw [← within]
      exact ⟨seen.parent, .directory, tree.above _ entry seen there⟩

theorem not_ignored {path : Path} (visible : Visible path) :
    ¬ (path = checksumFile ∨ path = logFile) ∧ ignoreSuffix path = false := by
  have kept : ignored path = false := by
    cases visible with
    | root => decide
    | inside named kept above => exact kept
  simp only [ignored, Bool.or_eq_false_iff, decide_eq_false_iff_not] at kept
  exact ⟨not_or.mpr kept.1, kept.2⟩

theorem scan_covers {depth : Nat} (tree : Tree files) (covers : Covers depth path sought)
    (visible : Visible sought) (found : files.lookup sought = some entry)
    (reached : path = root ∨ path ≠ root ∧ Visible (parent path))
    (scanned : getFileInfoSeqInt tools compress depth path files = some (infos, after)) :
    fileInfo tools compress sought entry ∈ infos := by
  induction covers generalizing files infos after with
  | @here depth path =>
      rw [getFileInfoSeqInt, if_neg (not_ignored visible).1,
        if_neg (Bool.eq_false_iff.mp (not_ignored visible).2), found] at scanned
      cases entry with
      | directory =>
          simp only [Option.bind_eq_bind, Option.bind_eq_some_iff, Prod.exists] at scanned
          obtain ⟨rest, last, inner, same⟩ := scanned
          cases same
          exact List.mem_cons_self
      | file content executable =>
          cases scanned
          exact List.mem_cons_self
  | @child depth path child sought named within rest ih =>
      have passes := rest.passes tree visible found
      obtain ⟨seen, below, there⟩ := passes
      have upper : Visible path := within ▸ seen.parent
      have directory : files.lookup path = some .directory :=
        within ▸ tree.above child below seen there
      rw [getFileInfoSeqInt, if_neg (not_ignored upper).1,
        if_neg (Bool.eq_false_iff.mp (not_ignored upper).2), directory] at scanned
      simp only [Option.bind_eq_bind, Option.bind_eq_some_iff, Prod.exists] at scanned
      obtain ⟨infos, last, inner, same⟩ := scanned
      cases same
      have among : child ∈ readDirectory files path :=
        mem_readDirectory.mpr ⟨⟨below, there⟩, named, within⟩
      obtain ⟨middle, part, rest, one, unchanged, subset⟩ :=
        (scan_all_finds (fun other inside files infos after scanned =>
          scan_finds (.inr ⟨(mem_readDirectory.mp inside).2.1, by
            rw [(mem_readDirectory.mp inside).2.2]
            exact upper⟩) scanned) inner).2 child among
      apply List.mem_cons_of_mem
      apply subset
      apply ih (unchanged.tree tree) visible
      · rw [unchanged _ visible]
        exact found
      · exact .inr ⟨named, within ▸ upper⟩
      · exact one

theorem compressed_key (sized : ∀ content executable, entry = .file content executable →
      0 ≤ (fileInfo tools compress path entry).size) :
    (fileInfo tools compress path entry).key = (fileInfo tools false path entry).key := by
  have kind : (fileInfo tools compress path entry).isDirectory =
      (fileInfo tools false path entry).isDirectory := by
    cases entry with
    | directory => rfl
    | file content executable =>
        have size := sized content executable rfl
        simp only [FileInfo.isDirectory]
        rw [decide_eq_false (by omega)]
        simp [fileInfo]
  unfold FileInfo.key FileInfo.identity
  rw [kind]
  rfl

theorem listing_describes {order : FileOrder} (tree : Tree files)
    (sized : ∀ path content executable, Visible path →
      files.lookup path = some (.file content executable) →
      0 ≤ (fileInfo tools compress path (.file content executable)).size)
    (listed : getFileInfoSeq order tools compress files = some (infos, after)) :
    SameVisible files after ∧ Describes order tools infos files ∧
      ∀ info ∈ infos, ∃ entry, Visible info.path ∧ files.lookup info.path = some entry ∧
        info = fileInfo tools compress info.path entry := by
  simp only [getFileInfoSeq, Option.bind_eq_bind, Option.bind_eq_some_iff, Prod.exists] at listed
  obtain ⟨all, last, scanned, same⟩ := listed
  cases same
  have finds := scan_finds (.inl rfl) scanned
  have exactly : ∀ info ∈ unique order.equal (sort order.less all), ∃ entry,
      Visible info.path ∧ files.lookup info.path = some entry ∧
        info = fileInfo tools compress info.path entry := by
    intro info inside
    obtain ⟨path, entry, visible, found, made⟩ := finds.2 info (mem_sort.mp (mem_of_unique inside))
    rw [made]
    exact ⟨entry, visible, found, rfl⟩
  have keyed {path : Path} {entry : Entry} (visible : Visible path)
      (found : files.lookup path = some entry) :
      (fileInfo tools compress path entry).key = (fileInfo tools false path entry).key := by
    apply compressed_key
    intro content executable made
    rw [made] at found ⊢
    exact sized path content executable visible found
  refine ⟨finds.1, ⟨?_, ?_, ?_⟩, exactly⟩
  · exact unique_sorted order.equal_iff order.ordered (sort_pairwise order.ordered)
  · intro info inside
    obtain ⟨entry, visible, found, made⟩ := exactly info inside
    refine ⟨entry, visible, found, ?_⟩
    rw [made]
    exact keyed visible found
  · intro path entry visible found
    have among := scan_covers tree (covers_depth visible found) visible found (.inl rfl) scanned
    obtain ⟨info, inside, same⟩ := unique_view order.equal_iff (mem_sort.mpr among)
    exact ⟨info, inside, same.trans (keyed visible found)⟩

end IceTouch.IcePatch2
