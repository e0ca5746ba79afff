import IceTouch.IcePatch2.Listing
import IceTouch.Library.Blocks

/-!
# Checksums of lists, and what has to change

`getFileTree0` cuts a list into 256 nodes by the first bytes of the checksums. `prepare` asks
the server for the nodes whose checksums differ and compares them with its own.
-/

namespace IceTouch.IcePatch2

open Bytes WireTypes SortedSets Blocks

structure FileTree1 where
  files : List FileInfo
  checksum : Str

structure FileTree0 where
  nodes : List FileTree1
  checksum : Str

def FileInfo.node (info : FileInfo) : Nat := (info.checksum.headD 0).toNat

def nodeFiles (infos : List FileInfo) (node : Nat) : List FileInfo :=
  infos.filter fun info => node = info.node

def records (infos : List FileInfo) : Str :=
  infos.flatMap fun info => info.checksum ++ [if info.executable then 1 else 0]

def getFileTree1 (tools : Tools) (infos : List FileInfo) (node : Nat) : FileTree1 :=
  ⟨nodeFiles infos node, tools.digest (records (nodeFiles infos node))⟩

def getFileTree0 (tools : Tools) (infos : List FileInfo) : FileTree0 :=
  let nodes := (List.range 256).map (getFileTree1 tools infos)
  ⟨nodes, tools.digest (nodes.flatMap FileTree1.checksum)⟩

structure Server where
  files : FileSystem
  infos : List FileInfo

def Server.getChecksum (tools : Tools) (server : Server) : Str :=
  (getFileTree0 tools server.infos).checksum

def Server.getChecksumSeq (tools : Tools) (server : Server) : List Str :=
  (getFileTree0 tools server.infos).nodes.map FileTree1.checksum

def Server.getFileInfoSeq (server : Server) (node : Nat) : List FileInfo :=
  nodeFiles server.infos node

/-- `_removeFiles`, `_updateFiles` and `_updateFlags`. -/
structure Plan where
  removeFiles : List FileInfo
  updateFiles : List FileInfo
  updateFlags : List FileInfo
deriving DecidableEq

def planNode (order : FileOrder) (infos answer : List FileInfo) : Plan :=
  let files := unique order.equal (sort order.less answer)
  let updatedFiles := setDifference order.less files infos
  let contentsUpdatedFiles := setDifference order.lessWithoutFlags files infos
  { removeFiles := setDifference order.lessWithoutFlags infos files
    updateFiles := contentsUpdatedFiles
    updateFlags := setDifference order.less updatedFiles contentsUpdatedFiles }

def Plan.append (first second : Plan) : Plan where
  removeFiles := first.removeFiles ++ second.removeFiles
  updateFiles := first.updateFiles ++ second.updateFiles
  updateFlags := first.updateFlags ++ second.updateFlags

def takeRequest {ρ : Type} (request : ρ) : Option ρ → Option ρ → Option ρ × Option ρ
  | none, next => (some request, next)
  | some current, next => (next, some current)

/-- The loop over the nodes. `current` and `next` are the nodes that the requests of `curCB` and
`nxtCB` are for; the next node that differs is requested before the answer for this one is
waited for. -/
def planNodes (order : FileOrder) (differs : Nat → Bool) (infos answers : Nat → List FileInfo) :
    List Nat → Option Nat → Option Nat → Plan
  | [], _, _ => ⟨[], [], []⟩
  | node :: nodes, current, next =>
      if differs node then
        let requests := takeRequest node current next
        (planNode order (infos node) (requests.1.elim [] answers)).append
          (planNodes order differs infos answers nodes requests.1
            ((nodes.find? differs).or requests.2))
      else planNodes order differs infos answers nodes current next

def Plan.sort (order : FileOrder) (plan : Plan) : Plan where
  removeFiles := SortedSets.sort order.less plan.removeFiles
  updateFiles := SortedSets.sort order.less plan.updateFiles
  updateFlags := SortedSets.sort order.less plan.updateFlags

/-- What `prepare` computes from the local list. -/
def makePlan (order : FileOrder) (tools : Tools) (server : Server) (infos : List FileInfo) : Plan :=
  let tree := getFileTree0 tools infos
  let plan :=
    if tree.checksum ≠ server.getChecksum tools then
      planNodes order
        (fun node =>
          (tree.nodes[node]?).map FileTree1.checksum ≠ (server.getChecksumSeq tools)[node]?)
        (fun node => ((tree.nodes[node]?).map FileTree1.files).getD []) server.getFileInfoSeq
        (List.range 256) none none
    else ⟨[], [], []⟩
  plan.sort order

def plans (order : FileOrder) (infos answers : Nat → List FileInfo) (nodes : List Nat) : Plan :=
  nodes.foldr (fun node plan => (planNode order (infos node) (answers node)).append plan)
    ⟨[], [], []⟩

variable {order : FileOrder} {tools : Tools} {server : Server} {differs : Nat → Bool}
  {infos answers : Nat → List FileInfo}

theorem plan_nodes_answers {nodes : List Nat} {current next : Option Nat}
    (pending : current = none ∨ ∀ node, nodes.find? differs = some node → next = some node) :
    planNodes order differs infos answers nodes current next =
      plans order infos answers (nodes.filter differs) := by
  induction nodes generalizing current next with
  | nil => rfl
  | cons node nodes ih =>
      rw [planNodes]
      split
      · next different =>
          rw [List.filter_cons_of_pos different, plans, List.foldr_cons]
          have asked : (takeRequest node current next).1 = some node := by
            cases current with
            | none => rfl
            | some requested =>
                obtain never | ready := pending
                · cases never
                · exact ready node (List.find?_cons_of_pos different)
          dsimp only
          rw [ih]
          · rw [asked]
            rfl
          · right
            intro following found
            rw [found]
            rfl
      · next same =>
          have same : differs node = false := Bool.eq_false_iff.mpr same
          rw [List.filter_cons_of_neg (by simp [same])]
          apply ih
          obtain none | ready := pending
          · exact .inl none
          · right
            intro following found
            apply ready
            rw [List.find?_cons_of_neg (by simp [same])]
            exact found

theorem plans_part {part : Plan → List FileInfo} (none : part ⟨[], [], []⟩ = [])
    (append : ∀ first second, part (first.append second) = part first ++ part second)
    (nodes : List Nat) : part (plans order infos answers nodes) =
      nodes.flatMap fun node => part (planNode order (infos node) (answers node)) := by
  induction nodes with
  | nil => exact none
  | cons node nodes ih =>
      rw [List.flatMap_cons, ← ih, plans, List.foldr_cons, append]
      rfl

structure Listed (order : FileOrder) (infos : List FileInfo) : Prop where
  sorted : Sorted order.less infos
  single : ∀ first ∈ infos, ∀ second ∈ infos, first.path = second.path → first = second
  lengths : ∀ info ∈ infos, info.checksum.length = 20

variable {list : List FileInfo}

theorem Listed.withoutFlags (listed : Listed order list) : Sorted order.lessWithoutFlags list := by
  apply sorted_restrict order.ordered order.orderedWithoutFlags order.restricts _ listed.sorted
  intro first one second two same
  rw [listed.single first one second two (congrArg Prod.fst same)]

theorem Listed.part (listed : Listed order list) (node : Nat) :
    Listed order (nodeFiles list node) where
  sorted := listed.sorted.sublist (List.filter_sublist)
  single first one second two same :=
    listed.single first (List.mem_filter.mp one).1 second (List.mem_filter.mp two).1 same
  lengths info inside := listed.lengths info (List.mem_filter.mp inside).1

theorem Listed.sorts (listed : Listed order list) :
    unique order.equal (sort order.less list) = list := by
  have unchanged : sort order.less list = list := by
    apply List.Pairwise.insertionSort_eq
    exact listed.sorted.imp fun before => order.ordered.asymmetric before
  rw [unchanged]
  have after {last : FileInfo} {rest : List FileInfo}
      (sorted : Sorted order.less (last :: rest)) : uniqueAfter order.equal last rest = rest := by
    induction rest generalizing last with
    | nil => rfl
    | cons item items ih =>
        obtain ⟨first, tail⟩ := List.pairwise_cons.mp sorted
        have different : order.equal last item ≠ true := by
          rw [Ne, order.equal_iff]
          exact order.ordered.view_ne (first item List.mem_cons_self)
        rw [uniqueAfter, if_neg different, ih tail]
  cases list with
  | nil => rfl
  | cons first rest => rw [unique, after listed.sorted]

theorem mem_plan_node {list answer : List FileInfo} (listed : Listed order list)
    (answered : Listed order answer) {info : FileInfo} :
    (info ∈ (planNode order list answer).removeFiles ↔
      info ∈ list ∧ ∀ other ∈ answer, other.identity ≠ info.identity) ∧
    (info ∈ (planNode order list answer).updateFiles ↔
      info ∈ answer ∧ ∀ other ∈ list, other.identity ≠ info.identity) ∧
    (info ∈ (planNode order list answer).updateFlags ↔
      info ∈ answer ∧ (∀ other ∈ list, other.key ≠ info.key) ∧
        ∃ other ∈ list, other.identity = info.identity) := by
  simp only [planNode, answered.sorts]
  have coarse := order.orderedWithoutFlags
  have updated : Sorted order.less (setDifference order.less answer list) :=
    answered.sorted.sublist difference_sublist
  have contents : Sorted order.less (setDifference order.lessWithoutFlags answer list) :=
    answered.sorted.sublist difference_sublist
  refine ⟨mem_difference coarse listed.withoutFlags answered.withoutFlags,
    mem_difference coarse answered.withoutFlags listed.withoutFlags, ?_⟩
  rw [mem_difference order.ordered updated contents,
    mem_difference order.ordered answered.sorted listed.sorted]
  constructor
  · rintro ⟨⟨inside, changed⟩, flagged⟩
    refine ⟨inside, changed, ?_⟩
    by_contra none
    have missing : info ∈ setDifference order.lessWithoutFlags answer list := by
      rw [mem_difference coarse answered.withoutFlags listed.withoutFlags]
      exact ⟨inside, fun other among same => none ⟨other, among, same⟩⟩
    exact flagged info missing rfl
  · rintro ⟨inside, changed, other, among, same⟩
    refine ⟨⟨inside, changed⟩, ?_⟩
    intro found missing key
    rw [mem_difference coarse answered.withoutFlags listed.withoutFlags] at missing
    apply missing.2 other among
    rw [same]
    exact (congrArg Prod.fst key).symm

def Differs (tools : Tools) (server : Server) (list : List FileInfo) (node : Nat) : Prop :=
  (getFileTree0 tools list).checksum ≠ server.getChecksum tools ∧
    (getFileTree1 tools list node).checksum ≠ (getFileTree1 tools server.infos node).checksum

theorem node_lt (info : FileInfo) : info.node < 256 := (info.checksum.headD 0).toNat_lt

theorem mem_nodeFiles {info : FileInfo} {node : Nat} :
    info ∈ nodeFiles list node ↔ info ∈ list ∧ node = info.node := by
  rw [nodeFiles, List.mem_filter, decide_eq_true_eq]

instance (node : Nat) : Decidable (Differs tools server list node) :=
  inferInstanceAs (Decidable (_ ∧ _))

theorem plan_eq : makePlan order tools server list =
    (plans order (nodeFiles list) (nodeFiles server.infos)
      ((List.range 256).filter fun node => Differs tools server list node)).sort order := by
  unfold makePlan
  dsimp only
  congr 1
  split
  · next different =>
      have nodes (list : List FileInfo) {node : Nat} (small : node < 256) :
          (getFileTree0 tools list).nodes[node]? = some (getFileTree1 tools list node) := by
        simp [getFileTree0, small]
      have asked : ∀ node ∈ List.range 256,
          decide (((getFileTree0 tools list).nodes[node]?).map FileTree1.checksum ≠
            (server.getChecksumSeq tools)[node]?) = decide (Differs tools server list node) := by
        intro node inside
        have small := List.mem_range.mp inside
        simp only [Server.getChecksumSeq, List.getElem?_map, nodes list small,
          nodes server.infos small, Option.map_some, ne_eq, Option.some.injEq, Differs, different,
          not_false_eq_true, true_and]
      rw [plan_nodes_answers (.inl rfl), List.filter_congr asked]
      apply List.foldr_ext
      intro node inside plan
      have small := List.mem_range.mp (List.mem_filter.mp inside).1
      dsimp only
      rw [nodes list small]
      rfl
  · next same =>
      have none : ((List.range 256).filter fun node => Differs tools server list node) = [] :=
        List.filter_eq_nil_iff.mpr fun _ _ differs =>
          absurd (not_not.mp same) (of_decide_eq_true differs).1
      rw [none]
      rfl

def record (info : FileInfo) : Str := info.checksum ++ [if info.executable then 1 else 0]

/-- Entries of the same checksum are about the same path and the same kind of entry. The path
and the content are hashed without a separator, so that the file `a` with the content `bc` and
the file `ab` with the content `c` have one checksum. -/
def Unmistaken (list served : List FileInfo) : Prop :=
  ∀ mine ∈ list, ∀ other ∈ served, mine.checksum = other.checksum → mine.identity = other.identity

/-- SHA-1 has no collision among what is hashed. -/
def CollisionFree (tools : Tools) (inputs : List Str) : Prop :=
  ∀ first ∈ inputs, ∀ second ∈ inputs, tools.digest first = tools.digest second → first = second

/-- What `getFileTree0` hashes. -/
def treeInputs (tools : Tools) (infos : List FileInfo) : List Str :=
  (getFileTree0 tools infos).nodes.flatMap FileTree1.checksum ::
    (List.range 256).map fun node => records (nodeFiles infos node)

def entryInputs (infos : List FileInfo) (recorded : Path → Entry) : List Str :=
  infos.map fun info => hashed info.path (recorded info.path)

/-- Lists whose checksums were made of entries are unmistaken when no two of these entries are
written alike. -/
theorem unmistaken_of_recorded {served : List FileInfo} {recorded published : Path → Entry}
    (mine : ∀ info ∈ list, info.key = (fileInfo tools false info.path (recorded info.path)).key)
    (theirs : ∀ info ∈ served, info.key = (fileInfo tools false info.path (published info.path)).key)
    (free : CollisionFree tools (entryInputs list recorded ++ entryInputs served published))
    (distinct : ∀ one ∈ list, ∀ two ∈ served,
      hashed one.path (recorded one.path) = hashed two.path (published two.path) →
      one.path = two.path ∧ one.isDirectory = two.isDirectory) : Unmistaken list served := by
  intro one inside two among same
  have checksum {info : FileInfo} {entry : Entry}
      (made : info.key = (fileInfo tools false info.path entry).key) :
      info.checksum = tools.digest (hashed info.path entry) :=
    congrArg (fun key => key.1.2.2) made
  have alike : hashed one.path (recorded one.path) = hashed two.path (published two.path) := by
    apply free
    · exact List.mem_append_left _ (List.mem_map.mpr ⟨one, inside, rfl⟩)
    · exact List.mem_append_right _ (List.mem_map.mpr ⟨two, among, rfl⟩)
    · rw [← checksum (mine one inside), ← checksum (theirs two among), same]
  obtain ⟨path, kind⟩ := distinct one inside two among alike
  rw [FileInfo.identity, FileInfo.identity, path, kind, same]

theorem digest_length (hashed : Str) : (tools.digest hashed).length = 20 := by
  unfold Tools.digest
  split
  · exact List.length_replicate
  · exact tools.sha1_length hashed

theorem same_key {served : List FileInfo} (unmistaken : Unmistaken list served)
    {mine other : FileInfo} (inside : mine ∈ list) (among : other ∈ served)
    (same : record mine = record other) : mine.key = other.key := by
  obtain ⟨checksum, flag⟩ := List.append_inj' same rfl
  have executable : mine.executable = other.executable := by
    cases one : mine.executable <;> cases two : other.executable <;> simp [one, two] at flag ⊢
  exact Prod.ext (unmistaken mine inside other among checksum) executable

section

variable (free : CollisionFree tools (treeInputs tools list ++ treeInputs tools server.infos))

include free

theorem same_tree (same : (getFileTree0 tools list).checksum = server.getChecksum tools) :
    (getFileTree0 tools list).nodes.flatMap FileTree1.checksum =
      (getFileTree0 tools server.infos).nodes.flatMap FileTree1.checksum :=
  free _ (List.mem_append_left _ List.mem_cons_self) _ (List.mem_append_right _ List.mem_cons_self)
    same

theorem same_node {node : Nat} (small : node < 256)
    (same : (getFileTree1 tools list node).checksum =
      (getFileTree1 tools server.infos node).checksum) :
    records (nodeFiles list node) = records (nodeFiles server.infos node) := by
  have hashes (infos : List FileInfo) : records (nodeFiles infos node) ∈ treeInputs tools infos :=
    List.mem_cons_of_mem _ (List.mem_map.mpr ⟨node, List.mem_range.mpr small, rfl⟩)
  exact free _ (List.mem_append_left _ (hashes list)) _
    (List.mem_append_right _ (hashes server.infos)) same

theorem same_records (listed : Listed order list) (answered : Listed order server.infos)
    {node : Nat} (small : node < 256) (same : ¬Differs tools server list node) :
    (nodeFiles list node).map record = (nodeFiles server.infos node).map record := by
  have checksums : (getFileTree1 tools list node).checksum =
      (getFileTree1 tools server.infos node).checksum := by
    by_contra different
    apply different
    have trees : (getFileTree0 tools list).checksum = server.getChecksum tools := by
      by_contra apart
      exact same ⟨apart, different⟩
    have sized (files : List FileInfo) : ∀ block ∈
        (getFileTree0 tools files).nodes.map FileTree1.checksum, block.length = 20 := by
      simp only [getFileTree0, List.map_map, List.mem_map]
      rintro block ⟨node, _, rfl⟩
      exact digest_length _
    have cut := Layout.fixed_cut (by decide) (sized list) (sized server.infos)
      (same_tree free trees)
    simp only [getFileTree0, List.map_map] at cut
    exact List.map_inj_left.mp cut node (List.mem_range.mpr small)
  have sized {files : List FileInfo} (listed : Listed order files) :
      ∀ block ∈ (nodeFiles files node).map record, block.length = 21 := by
    intro block inside
    obtain ⟨info, among, rfl⟩ := List.mem_map.mp inside
    rw [record, List.length_append, (listed.part node).lengths info among]
    rfl
  exact Layout.fixed_cut (by decide) (sized listed) (sized answered)
    (same_node free small checksums)

variable (unmistaken : Unmistaken list server.infos)

include unmistaken

theorem looked_at (listed : Listed order list) (answered : Listed order server.infos)
    {info : FileInfo}
    (alone : (info ∈ list ∧ ∀ other ∈ server.infos, other.key ≠ info.key) ∨
      (info ∈ server.infos ∧ ∀ other ∈ list, other.key ≠ info.key)) :
    Differs tools server list info.node := by
  by_contra same
  have records := same_records free listed answered (node_lt info) same
  obtain ⟨inside, alone⟩ | ⟨inside, alone⟩ := alone
  · have member := List.mem_map_of_mem (f := record) (mem_nodeFiles.mpr ⟨inside, rfl⟩)
    rw [records] at member
    obtain ⟨other, among, same⟩ := List.mem_map.mp member
    have among := (mem_nodeFiles.mp among).1
    exact alone other among (same_key unmistaken inside among same.symm).symm
  · have member := List.mem_map_of_mem (f := record) (mem_nodeFiles.mpr ⟨inside, rfl⟩)
    rw [← records] at member
    obtain ⟨other, among, same⟩ := List.mem_map.mp member
    have among := (mem_nodeFiles.mp among).1
    exact alone other among (same_key unmistaken among inside same)

end

structure Exact (order : FileOrder) (list served : List FileInfo) (plan : Plan) : Prop where
  removed : Sorted order.less plan.removeFiles
  updated : Sorted order.less plan.updateFiles
  flagged : Sorted order.less plan.updateFlags
  removeFiles : ∀ info, info ∈ plan.removeFiles ↔
    info ∈ list ∧ ∀ other ∈ served, other.identity ≠ info.identity
  updateFiles : ∀ info, info ∈ plan.updateFiles ↔
    info ∈ served ∧ ∀ other ∈ list, other.identity ≠ info.identity
  updateFlags : ∀ info, info ∈ plan.updateFlags ↔
    info ∈ served ∧ (∀ other ∈ list, other.key ≠ info.key) ∧
      ∃ other ∈ list, other.identity = info.identity

theorem Listed.sort_parts {files : List FileInfo} (listed : Listed order files)
    {parts : Nat → List FileInfo} {nodes : List Nat} (once : nodes.Nodup)
    (each : ∀ node, (parts node).Sublist (nodeFiles files node)) :
    Sorted order.less (sort order.less (nodes.flatMap parts)) := by
  apply sort_sorted order.ordered
  · rw [List.nodup_flatMap]
    constructor
    · intro node _
      have sorted := (listed.part node).sorted.sublist (each node)
      exact sorted.imp fun before same => order.ordered.view_ne before (congrArg _ same)
    · apply once.imp
      intro one two apart info first second
      have here := (mem_nodeFiles.mp ((each one).subset first)).2
      exact apart (here.trans (mem_nodeFiles.mp ((each two).subset second)).2.symm)
  · intro first one second two same
    obtain ⟨node, _, one⟩ := List.mem_flatMap.mp one
    obtain ⟨other, _, two⟩ := List.mem_flatMap.mp two
    exact listed.single first (mem_nodeFiles.mp ((each node).subset one)).1 second
      (mem_nodeFiles.mp ((each other).subset two)).1 (congrArg (fun key => key.1.1) same)

theorem mem_plan (listed : Listed order list) (answered : Listed order server.infos)
    (unmistaken : Unmistaken list server.infos)
    (free : CollisionFree tools (treeInputs tools list ++ treeInputs tools server.infos)) :
    Exact order list server.infos (makePlan order tools server list) := by
  have once : ((List.range 256).filter fun node => Differs tools server list node).Nodup :=
    List.nodup_range.filter _
  have one_node {first second : FileInfo} (same : first.identity = second.identity) :
      second.node = first.node := by
    have checksum : first.checksum = second.checksum := congrArg (fun id => id.2.2) same
    rw [FileInfo.node, FileInfo.node, checksum]
  have within (node : Nat) (info : FileInfo) := @mem_plan_node order (nodeFiles list node)
    (nodeFiles server.infos node) (listed.part node) (answered.part node) info
  have removed := @plans_part order (nodeFiles list) (nodeFiles server.infos) Plan.removeFiles rfl
    (fun _ _ => rfl)
  have updated := @plans_part order (nodeFiles list) (nodeFiles server.infos) Plan.updateFiles rfl
    (fun _ _ => rfl)
  have flagged := @plans_part order (nodeFiles list) (nodeFiles server.infos) Plan.updateFlags rfl
    (fun _ _ => rfl)
  have apart {mine theirs : List FileInfo} {info : FileInfo}
      (differs : info ∈ mine → (∀ other ∈ theirs, other.key ≠ info.key) →
        Differs tools server list info.node) :
      (∃ node, (node < 256 ∧ Differs tools server list node) ∧ (info ∈ mine ∧ node = info.node) ∧
        ∀ other, other ∈ theirs ∧ node = other.node → other.identity ≠ info.identity) ↔
      info ∈ mine ∧ ∀ other ∈ theirs, other.identity ≠ info.identity := by
    constructor
    · rintro ⟨node, _, ⟨inside, rfl⟩, apart⟩
      exact ⟨inside, fun other among same => apart other ⟨among, one_node same⟩ same⟩
    · rintro ⟨inside, apart⟩
      exact ⟨info.node, ⟨node_lt info, differs inside fun other among same =>
        apart other among (congrArg Prod.fst same)⟩, ⟨inside, rfl⟩, fun other among =>
        apart other among.1⟩
  rw [plan_eq]
  constructor
  · rw [Plan.sort, removed]
    exact listed.sort_parts once fun node => difference_sublist
  · rw [Plan.sort, updated]
    apply answered.sort_parts once
    intro node
    rw [planNode, (answered.part node).sorts]
    exact difference_sublist
  · rw [Plan.sort, flagged]
    apply answered.sort_parts once
    intro node
    rw [planNode, (answered.part node).sorts]
    exact difference_sublist.trans difference_sublist
  all_goals
    intro info
    simp only [Plan.sort, mem_sort, removed, updated, flagged, List.mem_flatMap, List.mem_filter,
      List.mem_range, decide_eq_true_eq, within, mem_nodeFiles]
  · exact apart fun there alone => looked_at free unmistaken listed answered (.inl ⟨there, alone⟩)
  · exact apart fun there alone => looked_at free unmistaken listed answered (.inr ⟨there, alone⟩)
  · constructor
    · rintro ⟨node, _, ⟨inside, rfl⟩, apart, other, among, same⟩
      exact ⟨inside, fun found there key =>
        apart found ⟨there, one_node (congrArg Prod.fst key)⟩ key, other, among.1, same⟩
    · rintro ⟨inside, apart, other, among, same⟩
      have differs := looked_at free unmistaken listed answered (.inr ⟨inside, apart⟩)
      exact ⟨info.node, ⟨node_lt info, differs⟩, ⟨inside, rfl⟩,
        fun found there => apart found there.1, other, ⟨among, one_node same⟩, same⟩

end IceTouch.IcePatch2
