import VersionMatrix.Proofs.Staging.Completion
import VersionMatrix.Proofs.Text.ByteOrder

/-! The archive of a staging tree: which entries it has and how they follow each other. Both are told by
what stands below the staging directory, in whatever order the system lists its directories. -/
namespace VersionMatrix

open FileTree Disk

variable {hidden : Location → Prop} {disk other : Disk} {tree tree' : FileTree} {staging staging' item : String}
  {top top' rel loc loc' : Location} {entry : Entry} {rows : List (String × Entry)} {context context' : BuildContext}

/-- A walk through a tree comes to one location before another: to a directory before what it holds, and
to everything below one entry of a directory before an entry whose name has greater bytes. -/
inductive WalksBefore : Location → Location → Prop
  | inside {loc more : Location} (proper : more ≠ []) : WalksBefore loc (loc ++ more)
  | beside {dir below below' : Location} {item item' : String} (before : Text.utf8 item < Text.utf8 item') :
      WalksBefore (dir ++ item :: below) (dir ++ item' :: below')

theorem WalksBefore.lt (before : WalksBefore loc loc') : loc < loc' := by
  cases before with
  | @inside _ more proper =>
      obtain ⟨first, rest, rfl⟩ := List.exists_cons_of_ne_nil proper
      have longer : loc ++ [] < loc ++ first :: rest := List.append_left_lt List.Lex.nil
      rwa [List.append_nil] at longer
  | beside before =>
      exact List.append_left_lt (List.cons_lt_cons_iff.2 (.inl (Text.utf8_lt_iff.1 before)))

theorem WalksBefore.asymm (before : WalksBefore loc loc') : ¬ WalksBefore loc' loc :=
  fun after => List.lt_asymm before.lt after.lt

namespace BuildContext

/-- The entries of an archive follow each other as in a walk. -/
def InOrder (context : BuildContext) : Prop :=
  context.Pairwise fun row row' => WalksBefore (Path.names row.1) (Path.names row'.1)

namespace Walked

/-- The walk through the entries of a directory comes to these and to what is below them. -/
theorem names_of_mem (walked : Walked hidden staging top disk rel rows context) {row : String × Entry}
    (listed : row ∈ context) :
    ∃ item ∈ rows.map (·.1), ∃ below, Path.names row.1 = rel ++ item :: below := by
  have later {rel : Location} {first : String × Entry} {rows : List (String × Entry)}
      (among : ∃ item ∈ rows.map (·.1), ∃ below, Path.names row.1 = rel ++ item :: below) :
      ∃ item ∈ (first :: rows).map (·.1), ∃ below, Path.names row.1 = rel ++ item :: below := by
    obtain ⟨item, member, found⟩ := among
    exact ⟨item, List.mem_cons_of_mem _ member, found⟩
  induction walked with
  | nil => cases listed
  | @leaf rel item entry rows context spot sound leaf plain rest ih =>
      rcases List.mem_append.1 listed with here | after
      · obtain rfl := List.mem_singleton.1 here
        exact ⟨item, List.mem_cons_self, [], Path.names_joinAll "" (isName_below spot.names spot.there.2)⟩
      · exact later (ih after)
  | @directory rel item rows inner context spot sound below rest ihBelow ih =>
      rw [List.cons_append] at listed
      rcases List.mem_cons.1 listed with rfl | listed
      · exact ⟨item, List.mem_cons_self, [], Path.names_joinAll "" spot.concat⟩
      rcases List.mem_append.1 listed with inside | after
      · obtain ⟨next, -, deeper, found⟩ := ihBelow inside
        refine ⟨item, List.mem_cons_self, next :: deeper, ?_⟩
        rw [found, List.append_assoc, List.singleton_append]
      · exact later (ih after)

/-- What is below an entry of a directory comes before the walk through the entries with greater names. -/
theorem before_of_mem (rest : Walked hidden staging top disk rel rows context)
    (least : ∀ row ∈ rows, item < row.1) {path : String} {below : Location}
    (here : Path.names path = rel ++ item :: below) {row : String × Entry} (listed : row ∈ context) :
    WalksBefore (Path.names path) (Path.names row.1) := by
  obtain ⟨item', member, below', found⟩ := rest.names_of_mem listed
  obtain ⟨row', among, rfl⟩ := List.mem_map.1 member
  rw [here, found]
  exact .beside (Text.utf8_lt_iff.2 (least row' among))

/-- What has been walked over sorted rows is in order. -/
theorem inOrder (walked : Walked hidden staging top disk rel rows context)
    (sorted : rows.Pairwise fun row row' => row.1 < row'.1) : InOrder context := by
  induction walked with
  | nil => exact List.Pairwise.nil
  | @leaf rel item entry rows context spot sound leaf plain rest ih =>
      obtain ⟨least, sorted⟩ := List.pairwise_cons.1 sorted
      have here : Path.names (Path.joinAll "" (rel ++ [item])) = rel ++ [item] :=
        Path.names_joinAll "" (isName_below spot.names spot.there.2)
      exact List.pairwise_cons.2 ⟨fun row listed => rest.before_of_mem least here listed, ih sorted⟩
  | @directory rel item rows inner context spot sound below rest ihBelow ih =>
      obtain ⟨least, sorted⟩ := List.pairwise_cons.1 sorted
      have here : Path.names (Path.joinAll "" (rel ++ [item])) = rel ++ [item] :=
        Path.names_joinAll "" spot.concat
      refine List.pairwise_append.2 ⟨List.pairwise_cons.2 ⟨fun row inside => ?_, ?_⟩, ih sorted, ?_⟩
      · obtain ⟨next, -, deeper, found⟩ := below.names_of_mem inside
        rw [here, found]
        exact .inside (List.cons_ne_nil _ _)
      · exact ihBelow (pairwise_contents _ _)
      · intro row inside row' after
        rcases List.mem_cons.1 inside with rfl | inside
        · exact rest.before_of_mem least here after
        · obtain ⟨next, -, deeper, found⟩ := below.names_of_mem inside
          rw [List.append_assoc, List.singleton_append] at found
          exact rest.before_of_mem least found after

end Walked

/-- An archive of the tree below a directory: every entry there is in it, once, under its relative path, with
links as links, and in the order of a walk. -/
structure Archives (tree : FileTree) (top : Location) (context : BuildContext) : Prop where
  once : (context.map (·.1)).Nodup
  holds : ∀ path entry, (path, entry) ∈ context ↔ ∃ rel ≠ [], ∃ there, path = Path.joinAll "" rel ∧
    tree.get? (top ++ rel) = some there ∧ entry = packedEntry there
  inOrder : InOrder context

/-- What stands below two directories is the same. -/
def SameBelow (tree tree' : FileTree) (top top' : Location) : Prop :=
  ∀ rel ≠ [], tree.get? (top ++ rel) = tree'.get? (top' ++ rel)

/-- Directories that hold the same have the same archive. -/
theorem Archives.unique (archives : Archives tree top context) (archives' : Archives tree' top' context')
    (same : SameBelow tree tree' top top') : context = context' := by
  refine List.Perm.eq_of_pairwise (fun _ _ _ _ before after => absurd after before.asymm)
    archives.inOrder archives'.inOrder ?_
  rw [List.perm_ext_iff_of_nodup archives.once.of_map archives'.once.of_map]
  rintro ⟨path, entry⟩
  rw [archives.holds, archives'.holds]
  refine exists_congr fun rel => and_congr_right fun proper => ?_
  rw [same rel proper]

/-- A tree that can be packed by the path of its top: there is no socket in it, and its names and the paths
to its entries are short enough. -/
structure Packable (tree : FileTree) (staging : String) (top : Location) : Prop where
  plain : ∀ rel, tree.get? (top ++ rel) ≠ some .socket
  names : ∀ rel item entry, tree.get? (top ++ rel ++ [item]) = some entry →
    item.utf8ByteSize ≤ nameLimit
  paths : ∀ rel entry, rel ≠ [] → tree.get? (top ++ rel) = some entry →
    (Path.join staging (Path.joinAll "" rel)).utf8ByteSize < pathLimit

namespace Packable

variable (packable : Packable disk.tree staging top)

include packable

theorem fits (spot : Spot hidden staging top rel item entry disk) :
    (Path.join staging (Path.joinAll "" (rel ++ [item]))).utf8ByteSize < pathLimit := by
  refine packable.paths _ entry (by simp) ?_
  rw [← List.append_assoc, spot.there.2]

theorem length_lt_pathLimit (spot : Spot hidden staging top rel item .directory disk) :
    (rel ++ [item]).length < pathLimit :=
  calc (rel ++ [item]).length
      ≤ (Path.joinAll "" (rel ++ [item])).utf8ByteSize := Path.length_le_joinAll spot.concat
    _ ≤ (Path.join staging (Path.joinAll "" (rel ++ [item]))).utf8ByteSize :=
        Path.utf8ByteSize_le_join _ _
    _ < pathLimit := packable.fits spot

theorem joinFault?_eq_none (sound : Path.fault? staging = none)
    (spot : Spot hidden staging top rel item entry disk) :
    Path.joinFault? (Path.below staging (Path.joinAll "" rel)) item = none :=
  Path.joinFault?_below sound spot.names spot.proper (packable.names rel item entry spot.there.2)
    (packable.fits spot)

/-- The walk comes to its end. A path has fewer names than bytes, so the depth that is allowed is enough. -/
theorem exists_packListed (sound : Path.fault? staging = none)
    (clear : ∀ loc, top <+: loc → ¬ hidden loc) (depth : Nat) (rel : Location)
    (rows : List (String × Entry)) (above : rel.length < pathLimit) (deep : pathLimit ≤ rel.length + depth)
    (spots : ∀ row ∈ rows, Spot hidden staging top rel row.1 row.2 disk) :
    ∃ context, packListed disk staging depth (Path.joinAll "" rel) rows = .ok context := by
  induction depth generalizing rel rows with
  | zero => omega
  | succ depth ih =>
      induction rows with
      | nil => exact ⟨[], rfl⟩
      | cons row rows ihRows =>
          obtain ⟨item, entry⟩ := row
          obtain ⟨spot, spots⟩ := List.forall_mem_cons.1 spots
          obtain ⟨context, rest⟩ := ihRows spots
          rw [packListed_cons, packEntry_eq spot, packable.joinFault?_eq_none sound spot, rest]
          cases entry with
          | socket =>
              refine absurd ?_ (packable.plain (rel ++ [item]))
              rw [← List.append_assoc, spot.there.2]
          | directory =>
              have shallow := packable.length_lt_pathLimit spot
              obtain ⟨inner, packed⟩ := ih (rel ++ [item]) _ shallow
                (by rw [List.length_append, List.length_singleton]; omega) fun row listed =>
                  spot.inner (packable.names rel item _ spot.there.2) clear listed
              rw [packed]
              exact ⟨_, rfl⟩
          | file bytes executable => exact ⟨_, rfl⟩
          | link target => exact ⟨_, rfl⟩

end Packable

/-- What packing asks of an entry that it puts into an archive. -/
structure Accepted (staging : String) (row : String × Entry) : Prop where
  plain : row.2 ≠ .socket
  name : ∀ item, (Path.names row.1).getLast? = some item → item.utf8ByteSize ≤ nameLimit
  path : (Path.join staging row.1).utf8ByteSize < pathLimit

theorem accepted_of_sound (spot : Spot hidden staging top rel item entry disk)
    (sound : Path.joinFault? (Path.below staging (Path.joinAll "" rel)) item = none)
    (plain : entry ≠ .socket) : Accepted staging (Path.joinAll "" (rel ++ [item]), packedEntry entry) where
  plain := by
    cases entry with
    | socket => exact absurd rfl plain
    | _ => nofun
  name last isLast := by
    rw [Path.names_joinAll "" (isName_below spot.names spot.there.2)] at isLast
    obtain rfl : item = last := by simpa using isLast
    exact size_le_of_joinFault? sound
  path := by
    rw [Path.joinFault?, Option.or_eq_none_iff] at sound
    rw [Path.joinAll_concat, Path.join_joinAll staging item spot.names]
    exact (Path.fault?_eq_none_iff.1 sound.1).2.2

/-- Every row of an archive is one that can be packed. -/
theorem Walked.accepted (walked : Walked hidden staging top disk rel rows context) :
    ∀ row ∈ context, Accepted staging row := by
  induction walked with
  | nil => nofun
  | leaf spot sound leaf plain rest ih =>
      exact List.forall_mem_cons.2 ⟨accepted_of_sound spot sound plain, ih⟩
  | directory spot sound below rest ihBelow ih =>
      refine List.forall_mem_append.2 ⟨List.forall_mem_cons.2 ⟨?_, ihBelow⟩, ih⟩
      exact accepted_of_sound spot sound nofun

/-- A tree with an archive of accepted rows can be packed. -/
theorem Archives.packable (archives : Archives disk.tree top context)
    (isDirectory : disk.tree.get? top = some .directory) (accepted : ∀ row ∈ context, Accepted staging row) :
    Packable disk.tree staging top where
  plain rel stands := by
    by_cases proper : rel = []
    · rw [proper, List.append_nil, isDirectory] at stands
      cases stands
    · exact (accepted _ ((archives.holds _ _).2 ⟨rel, proper, .socket, rfl, stands, rfl⟩)).plain rfl
  names rel item entry stands := by
    rw [List.append_assoc] at stands
    refine (accepted _ ((archives.holds _ _).2 ⟨rel ++ [item], by simp, entry, rfl, stands, rfl⟩)).name item ?_
    rw [Path.names_joinAll "" fun name member => isName_of_get? stands (List.mem_append_right _ member)]
    exact List.getLast?_concat
  paths rel entry proper stands :=
    (accepted _ ((archives.holds _ _).2 ⟨rel, proper, entry, rfl, stands, rfl⟩)).path

section

variable (found : disk.find .through staging = .ok (top, .directory))

include found

theorem spots_of_find {row : String × Entry} (listed : row ∈ disk.tree.contents top) :
    Spot (fun _ => False) staging top [] row.1 row.2 disk where
  names := by simp
  opens := by
    rw [List.append_nil]
    exact (bare_of_find found).2
  there := by
    rw [List.append_nil]
    exact ⟨not_false, mem_contents.1 listed⟩

/-- What is packed has been walked from the root. -/
theorem walked_of_pack (packed : pack disk staging = .ok context) :
    Walked (fun _ => False) staging top disk [] (disk.tree.contents top) context := by
  rw [pack_eq found] at packed
  exact walked_packListed (fun _ _ => not_false) pathLimit [] _ context (fun row => spots_of_find found) packed

/-- What is packed is an archive of the tree. -/
theorem archives_of_pack (packed : pack disk staging = .ok context) : Archives disk.tree top context := by
  have walked := walked_of_pack found packed
  obtain ⟨once, holds⟩ := (walked.packs (nodup_contents _ _)).whole
  exact ⟨once, holds, walked.inOrder (pairwise_contents _ _)⟩

/-- There is an archive exactly of what is packable. -/
theorem exists_pack_iff : (∃ context, pack disk staging = .ok context) ↔ Packable disk.tree staging top := by
  constructor
  · rintro ⟨context, packed⟩
    exact (archives_of_pack found packed).packable (get?_of_find found)
      (walked_of_pack found packed).accepted
  · intro packable
    rw [pack_eq found]
    exact packable.exists_packListed (bare_of_find found).1
      (fun _ _ => not_false) pathLimit [] _ (by decide) (by simp) fun row => spots_of_find found

end

/-- A staging directory is packed exactly if no socket is in it and its names and paths are short enough.
The archive has one entry for each entry below the directory and none besides, under the relative path and
as it stands there, a link with its target as an archive keeps it and never with what it leads to. They are
in the order of a walk. Another staging directory with the same below it has the same archive, whatever else
stands on its disk and in whatever order the entries are kept there. -/
theorem pack_archives (found : disk.find .through staging = .ok (top, .directory)) :
    ((∃ context, pack disk staging = .ok context) ↔ Packable disk.tree staging top) ∧
      ∀ context, pack disk staging = .ok context → Archives disk.tree top context ∧
        ∀ (other : Disk) (staging' : String) (top' : Location) (context' : BuildContext),
          other.find .through staging' = .ok (top', .directory) →
          SameBelow disk.tree other.tree top top' →
          pack other staging' = .ok context' → context' = context := by
  refine ⟨exists_pack_iff found, fun context packed => ?_⟩
  have archives := archives_of_pack found packed
  refine ⟨archives, fun other staging' top' context' found' same packed' => ?_⟩
  exact (archives.unique (archives_of_pack found' packed') same).symm

/-- A staging directory with links in it, one of them out of it, and a name that extends one of a directory. -/
def stagedDisk : Disk where
  tree :=
    { entries :=
        [(["t"], .file [1] false), (["s"], .directory), (["s", "o"], .link "../t"),
          (["s", "l"], .link "a//b"), (["s", "a.b"], .file [2] true), (["s", "a"], .directory),
          (["s", "a", "b"], .file [3] false)] }

def stagedContext : BuildContext :=
  [("a", .directory), ("a/b", .file [3] false), ("a.b", .file [2] true), ("l", .link "a/b"),
    ("o", .link "../t")]

/-- What is in a directory comes before a name that extends its name by a smaller byte than a slash. -/
theorem pack_archives_staged :
    stagedDisk.find .through "/s" = .ok (["s"], .directory) ∧
      pack stagedDisk "/s" = .ok stagedContext ∧ Packable stagedDisk.tree "/s" ["s"] ∧
      Archives stagedDisk.tree ["s"] stagedContext := by
  have found : stagedDisk.find .through "/s" = .ok (["s"], .directory) := by decide +kernel
  have packed : pack stagedDisk "/s" = .ok stagedContext := by decide +kernel
  obtain ⟨total, archives⟩ := pack_archives found
  exact ⟨found, packed, total.1 ⟨_, packed⟩, (archives _ packed).1⟩

/-- The archive has its own spelling of the targets of links. -/
theorem exists_pack_respelled : ∃ context, pack stagedDisk "/s" = .ok context ∧
    stagedDisk.find .through "/s" = .ok (["s"], .directory) ∧
    stagedDisk.tree.get? ["s", "l"] = some (.link "a//b") ∧ ("l", .link "a//b") ∉ context :=
  ⟨stagedContext, by decide +kernel, by decide +kernel, by decide +kernel, by decide +kernel⟩

end BuildContext

end VersionMatrix
