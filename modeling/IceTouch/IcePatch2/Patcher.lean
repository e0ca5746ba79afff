import IceTouch.IcePatch2.Checksums
import IceTouch.IcePatch2.Simplify
import Mathlib.Data.List.Lex
import Mathlib.Data.Prod.Lex

/-!
# Patching

`patch` carries out the plan of `prepare`, for all files or for those in a directory, and keeps
`_localFiles` and what is left of the plan. The files themselves are not part of the model.
-/

namespace IceTouch.IcePatch2

open Bytes WireTypes SortedSets Escape

structure Patcher where
  localFiles : List FileInfo
  plan : Plan

namespace Patcher

def removeFiles (order : FileOrder) (remove : Int) (files : List FileInfo) (patcher : Patcher) :
    Patcher :=
  if remove < 1 then patcher
  else
    { localFiles := setDifference order.less patcher.localFiles files
      plan := { patcher.plan with
        removeFiles := setDifference order.less patcher.plan.removeFiles files } }

def updateFiles (order : FileOrder) (files : List FileInfo) (patcher : Patcher) : Patcher where
  localFiles := setUnion order.less patcher.localFiles files
  plan := { patcher.plan with
    updateFiles := setDifference order.less patcher.plan.updateFiles files }

def updateFlags (order : FileOrder) (files : List FileInfo) (patcher : Patcher) : Patcher where
  localFiles :=
    setUnion order.less (setDifference order.lessWithoutFlags patcher.localFiles files) files
  plan := { patcher.plan with
    updateFlags := setDifference order.less patcher.plan.updateFlags files }

/-- The files that `patch` is about. -/
def chosen (dir : Path) (files : List FileInfo) : List FileInfo :=
  let dir := simplify dir
  if dir = [] ∨ dir = root then files
  else files.filter fun info => info.path = dir ∨ simplify (dir ++ [slash]) <+: info.path

/-- A step with no files is left out. -/
def unlessEmpty (step : List FileInfo → Patcher → Patcher) (files : List FileInfo) :
    Patcher → Patcher :=
  if files = [] then id else step files

/-- A directory, and the number of steps before an exception or before the feedback stops it. -/
abbrev Call := Path × Nat

def patch (order : FileOrder) (remove : Int) (patcher : Patcher) (call : Call) : Patcher :=
  let steps :=
    [unlessEmpty (removeFiles order remove) (chosen call.1 patcher.plan.removeFiles),
      unlessEmpty (updateFiles order) (chosen call.1 patcher.plan.updateFiles),
      unlessEmpty (updateFlags order) (chosen call.1 patcher.plan.updateFlags)]
  (steps.take call.2).foldl (fun patcher step => step patcher) patcher

end Patcher

structure Pending (order : FileOrder) (served : List FileInfo) (patcher : Patcher) : Prop where
  sorted : Sorted order.less patcher.localFiles
  distinct : ∀ first ∈ patcher.localFiles, ∀ second ∈ patcher.localFiles,
    first.identity = second.identity → first.key = second.key
  removed : Sorted order.less patcher.plan.removeFiles
  updated : Sorted order.less patcher.plan.updateFiles
  flagged : Sorted order.less patcher.plan.updateFlags
  removeFiles : ∀ info ∈ patcher.plan.removeFiles, ∀ other ∈ served,
    other.identity ≠ info.identity
  updateFiles : ∀ info ∈ patcher.plan.updateFiles, info ∈ served ∧
    info ∉ patcher.plan.updateFlags ∧
    ∀ mine ∈ patcher.localFiles, mine.identity ≠ info.identity
  updateFlags : ∀ info ∈ patcher.plan.updateFlags, info ∈ served
  sound : ∀ mine ∈ patcher.localFiles, (∃ other ∈ served, other.key = mine.key) ∨
    (∃ info ∈ patcher.plan.removeFiles, info.key = mine.key) ∨
    ∃ info ∈ patcher.plan.updateFlags, info.identity = mine.identity
  complete : ∀ other ∈ served, (∃ mine ∈ patcher.localFiles, mine.key = other.key) ∨
    other ∈ patcher.plan.updateFiles ∨ other ∈ patcher.plan.updateFlags

variable {order : FileOrder} {served files list : List FileInfo} {patcher : Patcher}
  {remove : Int}

theorem Pending.initial {plan : Plan} (listed : Listed order list)
    (exact_ : Exact order list served plan) : Pending order served ⟨list, plan⟩ where
  sorted := listed.sorted
  distinct := by
    grind [listed.single, FileInfo.identity]
  removed := exact_.removed
  updated := exact_.updated
  flagged := exact_.flagged
  removeFiles := by
    grind [exact_.removeFiles]
  updateFiles := by
    grind [exact_.updateFiles, exact_.updateFlags]
  updateFlags := by
    grind [exact_.updateFlags]
  sound mine inside := by
    by_cases known : ∃ other ∈ served, other.identity = mine.identity
    · grind [exact_.updateFlags, listed.single, FileInfo.key, FileInfo.identity]
    · grind [exact_.removeFiles]
  complete := by
    grind [exact_.updateFiles, exact_.updateFlags]

theorem Pending.after_remove (pending : Pending order served patcher)
    (part : files.Sublist patcher.plan.removeFiles) :
    Pending order served (patcher.removeFiles order remove files) := by
  unfold Patcher.removeFiles
  split
  · exact pending
  have sorted := pending.removed.sublist part
  have kept {info : FileInfo} := @mem_difference _ _ _ _ _ _ order.ordered pending.sorted sorted info
  have left {info : FileInfo} := @mem_difference _ _ _ _ _ _ order.ordered pending.removed sorted info
  exact
    { pending with
      sorted := pending.sorted.sublist difference_sublist
      distinct := by
        grind [pending.distinct]
      removed := pending.removed.sublist difference_sublist
      removeFiles := by
        grind [pending.removeFiles]
      updateFiles := by
        grind [pending.updateFiles]
      sound := by
        grind [pending.sound]
      complete := by
        have apart := pending.removeFiles
        have inside := part.subset
        grind [pending.complete, FileInfo.key] }

theorem chosen_sublist (dir : Path) : (Patcher.chosen dir files).Sublist files := by
  unfold Patcher.chosen
  dsimp only
  split
  · exact List.Sublist.refl files
  · exact List.filter_sublist

theorem Pending.unless_empty {step : List FileInfo → Patcher → Patcher}
    (pending : Pending order served patcher) (after : Pending order served (step files patcher)) :
    Pending order served (Patcher.unlessEmpty step files patcher) := by
  unfold Patcher.unlessEmpty
  split
  · exact pending
  · exact after

theorem updates_kept (order : FileOrder) (remove : Int) (files : List FileInfo)
    (patcher : Patcher) :
    (Patcher.unlessEmpty (Patcher.removeFiles order remove) files patcher).plan =
      { patcher.plan with removeFiles := (Patcher.unlessEmpty (Patcher.removeFiles order remove)
          files patcher).plan.removeFiles } := by
  unfold Patcher.unlessEmpty Patcher.removeFiles
  split
  · rfl
  · split <;> rfl

theorem flags_kept (order : FileOrder) (files : List FileInfo) (patcher : Patcher) :
    (Patcher.unlessEmpty (Patcher.updateFiles order) files patcher).plan =
      { patcher.plan with updateFiles := (Patcher.unlessEmpty (Patcher.updateFiles order)
          files patcher).plan.updateFiles } := by
  unfold Patcher.unlessEmpty Patcher.updateFiles
  split <;> rfl

section

variable (single : ∀ first ∈ served, ∀ second ∈ served, first.path = second.path → first = second)

include single

theorem Pending.after_update (pending : Pending order served patcher)
    (part : files.Sublist patcher.plan.updateFiles) :
    Pending order served (patcher.updateFiles order files) := by
  have sorted := pending.updated.sublist part
  have left {info : FileInfo} := @mem_difference _ _ _ _ _ _ order.ordered pending.updated sorted info
  have joined {info : FileInfo} := @mem_of_union _ order.less patcher.localFiles files info
  have viewed {info : FileInfo} := @union_view _ _ _ _ patcher.localFiles files order.ordered info
  have before {info : FileInfo} := @mem_union_left _ order.less patcher.localFiles files info
  have new : ∀ info ∈ files, info ∈ served ∧
      ∀ mine ∈ patcher.localFiles, mine.identity ≠ info.identity := fun info inside =>
    ⟨(pending.updateFiles info (part.subset inside)).1,
      (pending.updateFiles info (part.subset inside)).2.2⟩
  unfold Patcher.updateFiles
  exact
    { pending with
      sorted := union_sorted order.ordered pending.sorted sorted
      distinct := by
        grind [pending.distinct, FileInfo.identity]
      updated := pending.updated.sublist difference_sublist
      updateFiles := by
        grind [pending.updateFiles, FileInfo.identity]
      sound := by
        grind [pending.sound]
      complete := by
        grind [pending.complete] }

theorem Pending.after_flags (pending : Pending order served patcher)
    (part : files.Sublist patcher.plan.updateFlags) :
    Pending order served (patcher.updateFlags order files) := by
  have sorted := pending.flagged.sublist part
  have there : ∀ info ∈ files, info ∈ served :=
    fun info inside => pending.updateFlags info (part.subset inside)
  have coarse := sorted_restrict order.ordered order.orderedWithoutFlags order.restricts
    pending.distinct pending.sorted
  have coarseFiles : Sorted order.lessWithoutFlags files := by
    apply sorted_restrict order.ordered order.orderedWithoutFlags order.restricts _ sorted
    grind [FileInfo.identity]
  have left {info : FileInfo} := @mem_difference _ _ _ _ _ _ order.ordered pending.flagged sorted info
  have kept {info : FileInfo} :=
    @mem_difference _ _ _ _ _ _ order.orderedWithoutFlags coarse coarseFiles info
  have joined {info : FileInfo} := @mem_of_union _ order.less
    (setDifference order.lessWithoutFlags patcher.localFiles files) files info
  have viewed {info : FileInfo} := @union_view _ _ _ _
    (setDifference order.lessWithoutFlags patcher.localFiles files) files order.ordered info
  have before {info : FileInfo} := @mem_union_left _ order.less
    (setDifference order.lessWithoutFlags patcher.localFiles files) files info
  unfold Patcher.updateFlags
  exact
    { pending with
      sorted := union_sorted order.ordered (pending.sorted.sublist difference_sublist) sorted
      distinct := by
        grind [pending.distinct, FileInfo.identity]
      flagged := pending.flagged.sublist difference_sublist
      updateFiles := by
        grind [pending.updateFiles, FileInfo.identity, part.subset]
      updateFlags := by
        grind [pending.updateFlags]
      sound := by
        grind [pending.sound, FileInfo.key]
      complete := by
        grind [pending.complete, FileInfo.key, FileInfo.identity] }

theorem Pending.after_patch (pending : Pending order served patcher) (call : Patcher.Call) :
    Pending order served (patcher.patch order remove call) := by
  obtain ⟨dir, steps⟩ := call
  have one := pending.unless_empty (@Pending.after_remove _ _ _ _ remove pending
    (chosen_sublist dir))
  have two := one.unless_empty
    (@Pending.after_update _ _ (Patcher.chosen dir patcher.plan.updateFiles) _ single one (by
      rw [updates_kept]
      exact chosen_sublist dir))
  have three := two.unless_empty
    (@Pending.after_flags _ _ (Patcher.chosen dir patcher.plan.updateFlags) _ single two (by
      rw [flags_kept, updates_kept]
      exact chosen_sublist dir))
  match steps with
  | 0 => exact pending
  | 1 => exact one
  | 2 => exact two
  | more + 3 =>
      rw [Patcher.patch, List.take_of_length_le (Nat.le_add_left 3 more)]
      exact three

end

theorem Pending.after_whole (pending : Pending order served patcher) (removes : 1 ≤ remove) :
    (patcher.patch order remove (root, 3)).plan = ⟨[], [], []⟩ := by
  have nothing {files : List FileInfo} (sorted : Sorted order.less files) :
      setDifference order.less files files = [] := by
    rw [List.eq_nil_iff_forall_not_mem]
    intro info inside
    obtain ⟨there, apart⟩ := (mem_difference order.ordered sorted sorted).mp inside
    exact apart info there rfl
  have normal : simplify root = root := by
    apply simplify_of_normal
    exact ⟨⟨⟨by decide, by decide⟩, by decide, by decide⟩, by decide, by decide, by decide⟩
  have all (files : List FileInfo) : Patcher.chosen root files = files := if_pos (.inr normal)
  obtain ⟨localFiles, plan⟩ := patcher
  have removed := nothing pending.removed
  have updated := nothing pending.updated
  have flagged := nothing pending.flagged
  obtain ⟨removeFiles, updateFiles, updateFlags⟩ := plan
  dsimp only at removed updated flagged
  simp only [Patcher.patch, all, List.take, List.foldl, Patcher.unlessEmpty]
  split <;> split <;> split <;>
    simp [Patcher.removeFiles, Patcher.updateFiles, Patcher.updateFlags, Int.not_lt.mpr removes, *]

variable {tools : Tools} {infos others : List FileInfo} {files : FileSystem} {server : Server}
  {calls : List Patcher.Call}

theorem patch_converges (listed : Listed order list) (answered : Listed order server.infos)
    (unmistaken : Unmistaken list server.infos)
    (free : CollisionFree tools (treeInputs tools list ++ treeInputs tools server.infos))
    (removes : 1 ≤ remove)
    (patched : (calls ++ [(root, 3)]).foldl (Patcher.patch order remove)
      ⟨list, makePlan order tools server list⟩ = patcher) :
    Sorted order.less patcher.localFiles ∧ patcher.plan = ⟨[], [], []⟩ ∧
      ∀ key, (∃ mine ∈ patcher.localFiles, mine.key = key) ↔
        ∃ other ∈ server.infos, other.key = key := by
  have single := answered.single
  have pending : Pending order server.infos (calls.foldl (Patcher.patch order remove)
      ⟨list, makePlan order tools server list⟩) := by
    have start := Pending.initial listed (mem_plan listed answered unmistaken free)
    clear patched
    generalize (⟨list, makePlan order tools server list⟩ : Patcher) = patcher at start ⊢
    induction calls generalizing patcher with
    | nil => exact start
    | cons call calls ih => exact ih _ (start.after_patch single call)
  rw [List.foldl_append] at patched
  have whole := @Pending.after_patch _ _ _ remove single pending (root, 3)
  have done := pending.after_whole removes
  rw [List.foldl_cons, List.foldl_nil] at patched
  rw [patched] at whole done
  refine ⟨whole.sorted, done, fun key => ⟨?_, ?_⟩⟩
  · rintro ⟨mine, inside, rfl⟩
    have sound := whole.sound mine inside
    rw [done] at sound
    simpa using sound
  · rintro ⟨other, inside, rfl⟩
    have complete := whole.complete other inside
    rw [done] at complete
    simpa using complete

theorem Describes.listed (describes : Describes order tools infos files) : Listed order infos where
  sorted := describes.sorted
  single first one second two same := by
    obtain ⟨entry, _, found, key⟩ := describes.sound first one
    obtain ⟨other, _, there, key'⟩ := describes.sound second two
    rw [same, there] at found
    cases found
    rw [same, ← key'] at key
    have once : (infos.map FileInfo.key).Nodup := List.pairwise_map.mpr
      (describes.sorted.imp fun before => order.ordered.view_ne before)
    exact List.inj_on_of_nodup_map once one two key
  lengths info inside := by
    obtain ⟨entry, _, _, key⟩ := describes.sound info inside
    have checksum := congrArg (fun key => key.1.2.2.length) key
    exact checksum.trans (digest_length _)

theorem Describes.alike (describes : Describes order tools infos files)
    (sorted : Sorted order.less others)
    (same : ∀ key, (∃ mine ∈ others, mine.key = key) ↔ ∃ other ∈ infos, other.key = key) :
    Describes order tools others files where
  sorted := sorted
  sound info inside := by
    obtain ⟨other, among, key⟩ := (same info.key).mp ⟨info, inside, rfl⟩
    obtain ⟨entry, visible, found, made⟩ := describes.sound other among
    have path : other.path = info.path := congrArg (fun key => key.1.1) key
    rw [path] at visible found made
    exact ⟨entry, visible, found, key.symm.trans made⟩
  complete path entry visible found := by
    obtain ⟨other, among, key⟩ := describes.complete path entry visible found
    exact (same _).mpr ⟨other, among, key⟩

theorem uncompressed (path : Path) (content : Str) (executable : Bool) (_ : Visible path)
    (_ : files.lookup path = some (.file content executable)) :
    0 ≤ (fileInfo tools false path (.file content executable)).size := by
  simp [fileInfo]

/-- Once a whole `patch` has come to its end, whatever calls came before it and wherever they
were stopped, the local list describes the tree of the server. -/
theorem patch_describes {compress : Bool} {served served' : FileSystem}
    (listed : Listed order list) (serverTree : Tree served)
    (sized : ∀ path content executable, Visible path →
      served.lookup path = some (.file content executable) →
      0 ≤ (fileInfo tools compress path (.file content executable)).size)
    (published : getFileInfoSeq order tools compress served = some (server.infos, served'))
    (unmistaken : Unmistaken list server.infos)
    (free : CollisionFree tools (treeInputs tools list ++ treeInputs tools server.infos))
    (removes : 1 ≤ remove)
    (patched : (calls ++ [(root, 3)]).foldl (Patcher.patch order remove)
      ⟨list, makePlan order tools server list⟩ = patcher) :
    Describes order tools patcher.localFiles served ∧ patcher.plan = ⟨[], [], []⟩ := by
  have theirs := (listing_describes serverTree sized published).2.1
  obtain ⟨sorted, done, same⟩ :=
    patch_converges listed theirs.listed unmistaken free removes patched
  exact ⟨theirs.alike sorted same, done⟩

def identityRank (info : FileInfo) : List Nat ×ₗ Bool ×ₗ List Nat :=
  toLex (info.path.map UInt8.toNat, toLex (info.isDirectory, info.checksum.map UInt8.toNat))

def keyRank (info : FileInfo) : (List Nat ×ₗ Bool ×ₗ List Nat) ×ₗ Bool :=
  toLex (identityRank info, info.executable)

theorem identity_rank (first second : FileInfo) :
    identityRank first = identityRank second ↔ first.identity = second.identity := by
  have bytes : Function.Injective (List.map UInt8.toNat) :=
    List.map_injective_iff.mpr fun _ _ => UInt8.toNat_inj.mp
  simp [identityRank, FileInfo.identity, bytes.eq_iff]

def memberOrder : FileOrder where
  less first second := keyRank first < keyRank second
  lessWithoutFlags first second := identityRank first < identityRank second
  equal first second := first.key = second.key
  ordered := .of_rank fun first second => by
    simp [keyRank, FileInfo.key, identity_rank]
  orderedWithoutFlags := .of_rank identity_rank
  equal_iff _ _ := decide_eq_true_iff
  restricts before := decide_eq_true (Prod.Lex.toLex_lt_toLex.mpr (.inl (of_decide_eq_true before)))
  byPath before := decide_eq_true (Prod.Lex.toLex_lt_toLex.mpr (.inl
    (List.map_lt (fun _ _ less => less) before)))

/-- The twenty bytes of a SHA-1 value. -/
def sha1Bytes (value : Nat) : Str := (List.range 20).map fun i => UInt8.ofNat (value / 256 ^ (19 - i))

/-- The SHA-1 values of the entries and of the records in the example below. -/
def sha1Table : List (Str × Nat) :=
  [(text ".", 0x3a52ce780950d4d969792a2559cd519d7ee8c727),
    (text "anew", 0x7e91e9b280c217b4c58c62b209b5ccf7d4bb217a),
    (text "brun", 0x07153c98425bcf289c949089e060ede03c8227b1),
    (text "cold", 0x424fa43965bde21e1a972336f3c3bc0dcaafebf5),
    (sha1Bytes 0x3a52ce780950d4d969792a2559cd519d7ee8c727 ++ [0],
      0xdafecb4140e6da2db6b8b92712a82d9239b8d3e5),
    (sha1Bytes 0x7e91e9b280c217b4c58c62b209b5ccf7d4bb217a ++ [0],
      0x15dbbe99ed27699717d12c352370e2f454f7347e),
    (sha1Bytes 0x07153c98425bcf289c949089e060ede03c8227b1 ++ [0],
      0x6846cfba03f1ee4d2e9305128fb6c9d1eaff87d4),
    (sha1Bytes 0x07153c98425bcf289c949089e060ede03c8227b1 ++ [1],
      0x0fb5977a4c57133e5d95f37409cfaa2a708f5e31),
    (sha1Bytes 0x424fa43965bde21e1a972336f3c3bc0dcaafebf5 ++ [0],
      0x906c5f272f7c641e1cadc3eb1aab19d10a00043c)]

/-- Of the checksums of all nodes, the client's has some for the node 66. -/
def sha1Value (content : Str) : Nat :=
  match content.drop 21 with
  | [] => (sha1Table.lookup content).getD 1
  | _ =>
      if content.getD 1320 0 = 0 then 0x65c84b581bba21a31a04dd3b997562f52e48b0f5
      else 0x43ae0b9f578549263e50a08f484b26a3dbbd4f2d

/-- SHA-1 is right where the example uses it. -/
def exampleTools : Tools where
  sha1 content := sha1Bytes (sha1Value content)
  compress content := content
  decompress := some
  directorySize := 0
  sha1_length content := by simp [sha1Bytes]
  decompress_compress _ := rfl
  compress_ne _ different := different

theorem Tree.insert_file {files : FileSystem} (tree : Tree files) {path : Path} {content : Str}
    {executable : Bool} (top : parent path = root) (absent : files.lookup path = none) :
    Tree (files.insert path (.file content executable)) := by
  have kept {other : Path} (there : files.lookup other = some .directory) :
      (files.insert path (.file content executable)).lookup other = some .directory := by
    have apart : other ≠ path := by
      rintro rfl
      rw [absent] at there
      cases there
    rw [AList.lookup_insert_ne apart, there]
  constructor
  · exact kept tree.rooted
  · intro other entry visible found
    apply kept
    by_cases here : other = path
    · rw [here, top]
      exact tree.rooted
    · rw [AList.lookup_insert_ne here] at found
      exact tree.above other entry visible found

theorem tree_root : Tree ((∅ : FileSystem).insert root .directory) where
  rooted := by decide
  above path entry _ found := by
    by_cases top : path = root
    · rw [top]
      decide
    · rw [AList.lookup_insert_ne top] at found
      cases found

def serverTree : FileSystem :=
  (((∅ : FileSystem).insert root .directory).insert (text "a") (.file (text "new") false)).insert
    (text "b") (.file (text "run") true)

def serverEntry (path : Path) : Entry := (serverTree.lookup path).getD .directory

def serverInfos : List FileInfo :=
  [root, text "a", text "b"].map fun path => fileInfo exampleTools false path (serverEntry path)

/-- What was there when the list of the client was made. -/
def clientEntry (path : Path) : Entry :=
  if path = text "b" then .file (text "run") false
  else if path = text "c" then .file (text "old") false
  else .directory

def clientInfos : List FileInfo :=
  [root, text "b", text "c"].map fun path => fileInfo exampleTools false path (clientEntry path)

theorem client_unmistaken : Unmistaken clientInfos serverInfos := by
  apply @unmistaken_of_recorded exampleTools clientInfos serverInfos clientEntry serverEntry
  · decide +kernel
  · decide +kernel
  · unfold CollisionFree
    decide +kernel
  · decide +kernel

theorem example_collision_free :
    CollisionFree exampleTools (treeInputs exampleTools clientInfos ++
      treeInputs exampleTools serverInfos) := by
  let mine := (getFileTree0 exampleTools clientInfos).nodes.flatMap FileTree1.checksum
  let theirs := (getFileTree0 exampleTools serverInfos).nodes.flatMap FileTree1.checksum
  let short : List Str := [] :: sha1Table.map Prod.fst
  have known : ∀ input ∈ treeInputs exampleTools clientInfos ++ treeInputs exampleTools serverInfos,
      input = mine ∨ input = theirs ∨ input ∈ short := by
    have listed : ∀ infos ∈ [clientInfos, serverInfos], ∀ node ∈ List.range 256,
        records (nodeFiles infos node) ∈ short := by
      decide +kernel
    intro input inside
    rcases List.mem_append.mp inside with tree | tree
    · rcases List.mem_cons.mp tree with whole | part
      · exact .inl whole
      · obtain ⟨node, small, rfl⟩ := List.mem_map.mp part
        exact .inr (.inr (listed clientInfos List.mem_cons_self node small))
    · rcases List.mem_cons.mp tree with whole | part
      · exact .inr (.inl whole)
      · obtain ⟨node, small, rfl⟩ := List.mem_map.mp part
        exact .inr (.inr (listed serverInfos (by decide) node small))
  have trees : exampleTools.digest mine ≠ exampleTools.digest theirs := by
    decide +kernel
  have mineApart : ∀ input ∈ short, exampleTools.digest mine ≠ exampleTools.digest input := by
    decide +kernel
  have theirsApart : ∀ input ∈ short, exampleTools.digest theirs ≠ exampleTools.digest input := by
    decide +kernel
  have shortApart : ∀ first ∈ short, ∀ second ∈ short,
      exampleTools.digest first = exampleTools.digest second → first = second := by
    decide +kernel
  intro first one second two same
  rcases known first one with rfl | rfl | one <;> rcases known second two with rfl | rfl | two
  · rfl
  · exact absurd same trees
  · exact absurd same (mineApart second two)
  · exact absurd same.symm trees
  · rfl
  · exact absurd same (theirsApart second two)
  · exact absurd same.symm (mineApart first one)
  · exact absurd same.symm (theirsApart first one)
  · exact shortApart first one second two same

/-- A file is added, one is removed and one becomes executable, by a call for one directory, a call
that stops when files have been removed, and a whole one. -/
theorem new_file_patched :
    makePlan memberOrder exampleTools ⟨serverTree, serverInfos⟩ clientInfos =
        ⟨[fileInfo exampleTools false (text "c") (clientEntry (text "c"))],
          [fileInfo exampleTools false (text "a") (serverEntry (text "a"))],
          [fileInfo exampleTools false (text "b") (serverEntry (text "b"))]⟩ ∧
      ∃ patcher : Patcher, Describes memberOrder exampleTools patcher.localFiles serverTree ∧
        patcher.plan = ⟨[], [], []⟩ := by
  have listed : Listed memberOrder clientInfos := by
    constructor
    · unfold Sorted
      decide +kernel
    · decide +kernel
    · decide +kernel
  have tree : Tree serverTree :=
    (tree_root.insert_file (by decide) (by decide)).insert_file (by decide) (by decide)
  exact ⟨by decide +kernel, _, @patch_describes memberOrder clientInfos _ 1 exampleTools
    ⟨serverTree, serverInfos⟩ [(text "a", 3), (root, 1)] false serverTree _ listed tree
    uncompressed rfl client_unmistaken example_collision_free (by decide) rfl⟩

end IceTouch.IcePatch2
