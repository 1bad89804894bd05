import VersionMatrix.Proofs.Staging.Template
import VersionMatrix.Pipeline.Stages

/-! What a build context holds: every entry below the staging directory, once, under its path. -/
namespace VersionMatrix

open FileTree Disk

variable {hidden foreign : Location → Prop} {disk found : Disk} {staging item : String}
  {top rel : Location} {entry : Entry} {context : BuildContext} {items : List String}

def packedEntry : Entry → Entry
  | .link target => .link (BuildContext.packedTarget target)
  | entry => entry

namespace BuildContext

/-- A context of the named entries of a directory and everything below them, each once. -/
structure Packs (disk : Disk) (top rel : Location) (items : List String) (context : BuildContext) :
    Prop where
  members : ∀ path entry, (path, entry) ∈ context ↔ ∃ item ∈ items, ∃ below there,
    path = Path.joinAll "" (rel ++ item :: below) ∧
      disk.tree.get? (top ++ rel ++ item :: below) = some there ∧ entry = packedEntry there
  distinct : (context.map (·.1)).Nodup

/-- Whatever stands below a directory has names on its way, so its path tells its location. -/
theorem isName_below (names : ∀ item ∈ rel, Path.isName item = true) {below : Location}
    (stands : disk.tree.get? (top ++ rel ++ item :: below) = some entry) :
    ∀ name ∈ rel ++ item :: below, Path.isName name = true := by
  intro name member
  rcases List.mem_append.1 member with inside | after
  · exact names name inside
  · exact isName_of_get? stands (List.mem_append_right _ after)

/-- Where packing has come to: a directory that the path leads to, and an entry that stands in it. -/
structure Spot (hidden : Location → Prop) (staging : String) (top rel : Location) (item : String)
    (entry : Entry) (disk : Disk) : Prop where
  names : ∀ item ∈ rel, Path.isName item = true
  opens : disk.Opens hidden (Path.below staging (Path.joinAll "" rel)) (top ++ rel)
  there : disk.tree.Shows hidden (top ++ rel ++ [item]) entry

namespace Spot

theorem proper (spot : Spot hidden staging top rel item entry disk) : Path.isName item = true :=
  isName_of_get? spot.there.2 (by simp)

theorem of_agreeOff (spot : Spot hidden staging top rel item entry disk)
    (agree : AgreeOff hidden disk found) : Spot hidden staging top rel item entry found where
  names := spot.names
  opens := spot.opens.of_agreeOff agree
  there := agree.shows spot.there

theorem concat (spot : Spot hidden staging top rel item .directory disk) :
    ∀ other ∈ rel ++ [item], Path.isName other = true := by
  intro other member
  rcases List.mem_append.1 member with inside | last
  · exact spot.names other inside
  · exact List.mem_singleton.1 last ▸ spot.proper

theorem listing (spot : Spot hidden staging top rel item .directory disk) :
    disk.listing (Path.entryAt staging rel item) =
      match Path.joinFault? (Path.below staging (Path.joinAll "" rel)) item with
      | some fault => .error fault
      | none => .ok (disk.tree.contents (top ++ rel ++ [item])) :=
  listing_join spot.opens spot.proper spot.there.2

/-- The path of an entry leads to it, unless it is refused by its text. -/
theorem find (spot : Spot hidden staging top rel item entry disk) :
    disk.find .itself (Path.entryAt staging rel item) =
      match Path.joinFault? (Path.below staging (Path.joinAll "" rel)) item with
      | some fault => .error fault
      | none => .ok (top ++ rel ++ [item], entry) := by
  rw [Path.entryAt, find_itself_join spot.opens spot.proper, spot.there.2]
  cases Path.joinFault? (Path.below staging (Path.joinAll "" rel)) item <;> rfl

/-- What a directory holds is packed next. -/
theorem inner (spot : Spot hidden staging top rel item .directory disk)
    (short : item.utf8ByteSize ≤ nameLimit)
    (clear : ∀ loc, top <+: loc → ¬ hidden loc) {row : String × Entry}
    (listed : row ∈ disk.tree.contents (top ++ rel ++ [item])) :
    Spot hidden staging top (rel ++ [item]) row.1 row.2 disk where
  names := spot.concat
  opens := by
    rw [Path.below_concat staging spot.names spot.proper, ← List.append_assoc]
    exact opens_join spot.opens spot.proper short spot.there
  there := by
    rw [← List.append_assoc]
    exact ⟨clear _ (by simp), mem_contents.1 listed⟩

/-- An entry that holds nothing is packed as itself. -/
theorem packs_leaf (spot : Spot hidden staging top rel item entry disk) (leaf : entry ≠ .directory) :
    Packs disk top rel [item] [(Path.joinAll "" (rel ++ [item]), packedEntry entry)] where
  members path packed := by
    simp only [List.mem_singleton, Prod.mk.injEq]
    constructor
    · rintro ⟨rfl, rfl⟩
      exact ⟨item, rfl, [], entry, rfl, spot.there.2, rfl⟩
    · rintro ⟨other, same, below, there, rfl, stands, rfl⟩
      subst same
      cases below with
      | nil =>
          rw [Option.some.inj (stands.symm.trans spot.there.2)]
          exact ⟨rfl, rfl⟩
      | cons next rest =>
          have missing : disk.tree.get? (top ++ rel ++ other :: next :: rest) = none :=
            get?_eq_none_of_prefix (by rw [spot.there.2]; simpa using leaf)
              ((List.prefix_append_right_inj _).2 (by simp)) (by simp)
          rw [missing] at stands
          cases stands
  distinct := List.nodup_singleton _

/-- A directory is packed before what it holds. -/
theorem packs_directory (spot : Spot hidden staging top rel item .directory disk)
    (inner : Packs disk top (rel ++ [item])
      ((disk.tree.contents (top ++ rel ++ [item])).map (·.1)) context) :
    Packs disk top rel [item] ((Path.joinAll "" (rel ++ [item]), .directory) :: context) := by
  have deeper : ∀ below : Location, top ++ rel ++ item :: below =
      top ++ (rel ++ [item]) ++ below := by simp
  have relative : ∀ below : Location, rel ++ item :: below = rel ++ [item] ++ below := by simp
  constructor
  · intro path packed
    rw [List.mem_cons, inner.members, Prod.mk.injEq]
    constructor
    · rintro (⟨rfl, rfl⟩ | ⟨next, -, rest, there, rfl, stands, rfl⟩)
      · exact ⟨item, List.mem_singleton_self item, [], .directory, rfl, spot.there.2, rfl⟩
      · refine ⟨item, List.mem_singleton_self item, next :: rest, there, ?_, ?_, rfl⟩
        · rw [relative (next :: rest)]
        · rw [deeper (next :: rest), stands]
    · rintro ⟨other, listed, below, there, rfl, stands, rfl⟩
      obtain rfl := List.mem_singleton.1 listed
      cases below with
      | nil =>
          rw [Option.some.inj (stands.symm.trans spot.there.2)]
          exact Or.inl ⟨rfl, rfl⟩
      | cons next rest =>
          refine Or.inr ⟨next, ?_, rest, there, ?_, ?_, rfl⟩
          · by_contra unlisted
            have absent := get?_eq_none_of_unlisted unlisted rest
            rw [List.append_assoc, List.singleton_append, stands] at absent
            cases absent
          · rw [relative (next :: rest)]
          · rw [← deeper (next :: rest), stands]
  · rw [List.map_cons, List.nodup_cons]
    refine ⟨fun repeated => ?_, inner.distinct⟩
    obtain ⟨⟨path, packed⟩, listed, same⟩ := List.mem_map.1 repeated
    obtain ⟨next, -, rest, there, rfl, stands, -⟩ := (inner.members _ _).1 listed
    rw [← deeper (next :: rest)] at stands
    have named := isName_below spot.names stands
    rw [relative (next :: rest)] at named
    have equal := Path.joinAll_injective named spot.concat same
    simpa using congrArg List.length equal

end Spot

/-- Contexts of different entries may be put one after the other. -/
theorem Packs.append {first second : List String} {rest : BuildContext}
    (here : Packs disk top rel first context) (next : Packs disk top rel second rest)
    (apart : ∀ item ∈ first, item ∉ second)
    (names : ∀ item ∈ rel, Path.isName item = true) :
    Packs disk top rel (first ++ second) (context ++ rest) where
  members path entry := by
    rw [List.mem_append, here.members, next.members]
    constructor
    · rintro (⟨item, listed, found⟩ | ⟨item, listed, found⟩)
      · exact ⟨item, List.mem_append_left _ listed, found⟩
      · exact ⟨item, List.mem_append_right _ listed, found⟩
    · rintro ⟨item, listed, found⟩
      exact (List.mem_append.1 listed).imp (⟨item, ·, found⟩) (⟨item, ·, found⟩)
  distinct := by
    rw [List.map_append, List.nodup_append]
    refine ⟨here.distinct, next.distinct, ?_⟩
    rintro _ inHere path inNext rfl
    obtain ⟨⟨_, _⟩, listed, rfl⟩ := List.mem_map.1 inHere
    obtain ⟨⟨_, _⟩, listed', same⟩ := List.mem_map.1 inNext
    obtain ⟨item, member, below, there, rfl, stands, -⟩ := (here.members _ _).1 listed
    obtain ⟨item', member', below', there', rfl, stands', -⟩ := (next.members _ _).1 listed'
    have equal := Path.joinAll_injective (isName_below names stands') (isName_below names stands) same
    obtain ⟨rfl, -⟩ := List.cons.inj (List.append_cancel_left equal)
    exact apart item' member member'

theorem Packs.nil : Packs disk top rel [] [] :=
  ⟨fun _ _ => by simp, List.nodup_nil⟩

/-- What packing an entry comes to, with what is below it packed as `inner`: a directory goes before what
it holds, and every other entry is packed as itself. A path that is refused by its text and a socket are
errors. -/
def partOf (fault? : Option FileFault) (entryPath path : String) (entry : Entry)
    (inner : Except StageError BuildContext) : Except StageError BuildContext :=
  match fault?, entry with
  | some fault, .directory => .error (.io entryPath (.file fault))
  | some fault, _ => .error (.io entryPath (.unexamined entryPath fault))
  | none, .directory => inner.map ((path, .directory) :: ·)
  | none, .socket => .error (.io entryPath (.unpackable entryPath))
  | none, entry => .ok [(path, packedEntry entry)]

/-- An entry in a spot is packed by its kind. -/
theorem packEntry_eq (spot : Spot hidden staging top rel item entry disk)
    (packInner : String → List (String × Entry) → Except StageError BuildContext) :
    packEntry disk staging packInner (Path.joinAll "" rel) (item, entry) =
      partOf (Path.joinFault? (Path.below staging (Path.joinAll "" rel)) item)
        (Path.entryAt staging rel item) (Path.joinAll "" (rel ++ [item])) entry
        (packInner (Path.joinAll "" (rel ++ [item]))
          (disk.tree.contents (top ++ rel ++ [item]))) := by
  unfold packEntry
  simp only [Path.join_joinAll _ _ spot.names, spot.find]
  simp only [← Path.joinAll_concat]
  cases sound : Path.joinFault? (Path.below staging (Path.joinAll "" rel)) item with
  | some fault => cases entry <;> rfl
  | none =>
      cases entry with
      | directory => simp only [spot.listing, sound, partOf]
      | _ => rfl

/-- What is packed of an entry is its own row, and what is below it for a directory. -/
theorem of_partOf_eq_ok {fault? : Option FileFault} {entryPath path : String}
    {inner : Except StageError BuildContext} (packed : partOf fault? entryPath path entry inner = .ok context) :
    fault? = none ∧ entry ≠ .socket ∧ (entry ≠ .directory ∧ context = [(path, packedEntry entry)] ∨
      entry = .directory ∧ ∃ below, inner = .ok below ∧ context = (path, .directory) :: below) := by
  cases fault? with
  | some fault => cases entry <;> cases packed
  | none =>
      refine ⟨rfl, ?_⟩
      cases entry with
      | socket => cases packed
      | file bytes executable => exact ⟨nofun, .inl ⟨nofun, (Except.ok.inj packed).symm⟩⟩
      | link target => exact ⟨nofun, .inl ⟨nofun, (Except.ok.inj packed).symm⟩⟩
      | directory =>
          cases inner with
          | error error => cases packed
          | ok below => exact ⟨nofun, .inr ⟨rfl, below, rfl, (Except.ok.inj packed).symm⟩⟩

/-- Rows are packed one after the other, up to the first error. -/
theorem packListed_cons (depth : Nat) (relative : String) (row : String × Entry)
    (rows : List (String × Entry)) :
    packListed disk staging (depth + 1) relative (row :: rows) =
      match packEntry disk staging (packListed disk staging depth) relative row with
      | .error error => .error error
      | .ok part => (packListed disk staging (depth + 1) relative rows).map (part ++ ·) := by
  rw [packListed, packListed, List.mapM_cons]
  cases packEntry disk staging (packListed disk staging depth) relative row with
  | error error => rfl
  | ok part =>
      cases rows.mapM (packEntry disk staging (packListed disk staging depth) relative) <;> rfl

/-- The walk through the listed entries of a directory: one after the other, and each directory right
before the walk through what it holds. No path is refused by its text, and no entry is a socket. -/
inductive Walked (hidden : Location → Prop) (staging : String) (top : Location) (disk : Disk) :
    Location → List (String × Entry) → BuildContext → Prop
  | nil {rel : Location} : Walked hidden staging top disk rel [] []
  | leaf {rel : Location} {item : String} {entry : Entry} {rows : List (String × Entry)}
      {context : BuildContext} (spot : Spot hidden staging top rel item entry disk)
      (sound : Path.joinFault? (Path.below staging (Path.joinAll "" rel)) item = none)
      (leaf : entry ≠ .directory) (plain : entry ≠ .socket)
      (rest : Walked hidden staging top disk rel rows context) :
      Walked hidden staging top disk rel ((item, entry) :: rows)
        ([(Path.joinAll "" (rel ++ [item]), packedEntry entry)] ++ context)
  | directory {rel : Location} {item : String} {rows : List (String × Entry)}
      {inner context : BuildContext} (spot : Spot hidden staging top rel item .directory disk)
      (sound : Path.joinFault? (Path.below staging (Path.joinAll "" rel)) item = none)
      (below : Walked hidden staging top disk (rel ++ [item])
        (disk.tree.contents (top ++ rel ++ [item])) inner)
      (rest : Walked hidden staging top disk rel rows context) :
      Walked hidden staging top disk rel ((item, .directory) :: rows)
        ((Path.joinAll "" (rel ++ [item]), .directory) :: inner ++ context)

/-- What is packed of a listing is a walk over it, by induction on the depth and the rows. -/
theorem walked_packListed (clear : ∀ loc, top <+: loc → ¬ hidden loc) (depth : Nat)
    (rel : Location) (rows : List (String × Entry)) (context : BuildContext)
    (spots : ∀ row ∈ rows, Spot hidden staging top rel row.1 row.2 disk)
    (packed : packListed disk staging depth (Path.joinAll "" rel) rows = .ok context) :
    Walked hidden staging top disk rel rows context := by
  induction depth generalizing rel rows context with
  | zero => cases packed
  | succ depth ih =>
      induction rows generalizing context with
      | nil =>
          rw [← Except.ok.inj packed]
          exact .nil
      | cons row rows ihRows =>
          obtain ⟨item, entry⟩ := row
          obtain ⟨spot, spots⟩ := List.forall_mem_cons.1 spots
          rw [packListed_cons, packEntry_eq spot] at packed
          split at packed
          next => cases packed
          next part first =>
              cases others : packListed disk staging (depth + 1) (Path.joinAll "" rel) rows with
              | error error =>
                  rw [others] at packed
                  cases packed
              | ok context =>
                  rw [others] at packed
                  rw [← Except.ok.inj packed]
                  have rest := ihRows context spots others
                  obtain ⟨sound, plain, ⟨leaf, rfl⟩ | ⟨rfl, below, inner, rfl⟩⟩ := of_partOf_eq_ok first
                  · exact .leaf spot sound leaf plain rest
                  · refine .directory spot sound (ih _ _ _ (fun row listed => ?_) inner) rest
                    exact spot.inner (size_le_of_joinFault? sound) clear listed

/-- A walk over distinct names packs each of them. -/
theorem Walked.packs {rows : List (String × Entry)}
    (walked : Walked hidden staging top disk rel rows context)
    (distinct : (rows.map (·.1)).Nodup) : Packs disk top rel (rows.map (·.1)) context := by
  induction walked with
  | nil => exact Packs.nil
  | leaf spot _ leaf _ _ ih =>
      obtain ⟨fresh, distinct⟩ := List.nodup_cons.1 distinct
      refine (spot.packs_leaf leaf).append (ih distinct) (fun item listed => ?_) spot.names
      exact List.mem_singleton.1 listed ▸ fresh
  | directory spot _ _ _ ihBelow ih =>
      obtain ⟨fresh, distinct⟩ := List.nodup_cons.1 distinct
      refine (spot.packs_directory (ihBelow (nodup_contents _ _))).append (ih distinct)
        (fun item listed => ?_) spot.names
      exact List.mem_singleton.1 listed ▸ fresh

/-- A context of all that a directory holds is one of everything below it. -/
theorem Packs.whole (packs : Packs disk top [] ((disk.tree.contents top).map (·.1)) context) :
    (context.map (·.1)).Nodup ∧ ∀ path entry, (path, entry) ∈ context ↔
      ∃ rel ≠ [], ∃ there, path = Path.joinAll "" rel ∧
        disk.tree.get? (top ++ rel) = some there ∧ entry = packedEntry there := by
  refine ⟨packs.distinct, fun path entry => ?_⟩
  rw [packs.members]
  simp only [List.append_nil, List.nil_append]
  constructor
  · rintro ⟨item, -, below, there, found⟩
    exact ⟨item :: below, List.cons_ne_nil _ _, there, found⟩
  · rintro ⟨rel, proper, there, same, stands, packed⟩
    obtain ⟨item, below, rfl⟩ := List.exists_cons_of_ne_nil proper
    refine ⟨item, ?_, below, there, same, stands, packed⟩
    by_contra unlisted
    rw [get?_eq_none_of_unlisted unlisted below] at stands
    cases stands

/-- An archive is packed from the listing of its root. -/
theorem pack_eq (found : disk.find .through staging = .ok (top, .directory)) :
    pack disk staging =
      packListed disk staging pathLimit (Path.joinAll "" []) (disk.tree.contents top) := by
  have stat : disk.stat staging = .ok .directory := by
    rw [stat, found]
    rfl
  simp only [pack, stat, listing_of_find found]
  rfl

theorem packEntry_of_agreeOff (spot : Spot hidden staging top rel item entry disk)
    (clear : ∀ loc, top <+: loc → ¬ hidden loc) (agree : AgreeOff hidden disk found)
    {packInner packInner' : String → List (String × Entry) → Except StageError BuildContext}
    (same : ∀ rows, (∀ row ∈ rows, Spot hidden staging top (rel ++ [item]) row.1 row.2 disk) →
      packInner' (Path.joinAll "" (rel ++ [item])) rows =
        packInner (Path.joinAll "" (rel ++ [item])) rows) :
    packEntry found staging packInner' (Path.joinAll "" rel) (item, entry) =
      packEntry disk staging packInner (Path.joinAll "" rel) (item, entry) := by
  rw [packEntry_eq spot, packEntry_eq (spot.of_agreeOff agree)]
  cases sound : Path.joinFault? (Path.below staging (Path.joinAll "" rel)) item with
  | some fault => cases entry <;> rfl
  | none =>
      cases entry with
      | directory =>
          have contents : found.tree.contents (top ++ rel ++ [item]) =
              disk.tree.contents (top ++ rel ++ [item]) := by
            refine contents_congr fun next => (agree.get? _ (clear _ ?_)).symm
            simp
          simp only [contents, partOf,
            same _ fun row listed => spot.inner (size_le_of_joinFault? sound) clear listed]
      | _ => rfl

theorem mapM_congr {α β : Type} {first second : α → Except StageError β} {items : List α}
    (same : ∀ item ∈ items, first item = second item) : items.mapM first = items.mapM second := by
  induction items with
  | nil => rfl
  | cons item items ih =>
      rw [List.forall_mem_cons] at same
      rw [List.mapM_cons, List.mapM_cons, same.1, ih same.2]

/-- What other jobs do does not show in what is packed. -/
theorem packListed_of_agreeOff (clear : ∀ loc, top <+: loc → ¬ hidden loc)
    (agree : AgreeOff hidden disk found) (depth : Nat) (rel : Location)
    (rows : List (String × Entry))
    (spots : ∀ row ∈ rows, Spot hidden staging top rel row.1 row.2 disk) :
    packListed found staging depth (Path.joinAll "" rel) rows =
      packListed disk staging depth (Path.joinAll "" rel) rows := by
  induction depth generalizing rel rows with
  | zero => rfl
  | succ depth ih =>
      rw [packListed, packListed]
      refine congrArg (Except.map List.flatten) (mapM_congr fun row listed => ?_)
      exact packEntry_of_agreeOff (spots row listed) clear agree (ih (rel ++ [row.1]))

end BuildContext

namespace Ready

open BuildContext

variable {base name : String} {dir : Location}

/-- The context of a staging directory that is ready is what is packed of it. -/
theorem contextOf_eq (ready : Ready foreign base name dir disk) :
    contextOf disk (Path.join base name) = packListed disk (Path.join base name) pathLimit
      (Path.joinAll "" []) (disk.tree.contents (dir ++ [name])) := by
  rw [contextOf, ready.stat]
  exact pack_eq ready.find

theorem spots (ready : Ready foreign base name dir disk) {row : String × Entry}
    (listed : row ∈ disk.tree.contents (dir ++ [name])) :
    Spot foreign (Path.join base name) (dir ++ [name]) [] row.1 row.2 disk where
  names := by simp
  opens := by
    rw [List.append_nil]
    exact ready.opens
  there := by
    rw [List.append_nil]
    exact ⟨ready.site.apart _ (List.prefix_append ..), mem_contents.1 listed⟩

/-- Whatever is foreign, the staging directory packs to the same. -/
theorem contextOf_of_agreeOff (ready : Ready foreign base name dir disk)
    (agree : AgreeOff foreign disk found) :
    contextOf found (Path.join base name) = contextOf disk (Path.join base name) := by
  have contents : found.tree.contents (dir ++ [name]) = disk.tree.contents (dir ++ [name]) := by
    refine contents_congr fun next => (agree.get? _ (ready.site.apart _ ?_)).symm
    exact List.prefix_append ..
  rw [ready.contextOf_eq, (ready.of_agreeOff agree).contextOf_eq, contents]
  exact packListed_of_agreeOff ready.site.apart agree pathLimit [] _ fun row => ready.spots

/-- A context holds every entry below the staging directory, once, under its path. -/
theorem packs (ready : Ready foreign base name dir disk)
    (packed : contextOf disk (Path.join base name) = .ok context) :
    (context.map (·.1)).Nodup ∧ ∀ path entry, (path, entry) ∈ context ↔
      ∃ rel ≠ [], ∃ there, path = Path.joinAll "" rel ∧
        disk.tree.get? (dir ++ [name] ++ rel) = some there ∧ entry = packedEntry there := by
  rw [ready.contextOf_eq] at packed
  have walked := walked_packListed ready.site.apart pathLimit [] _ context (fun row => ready.spots) packed
  exact (walked.packs (nodup_contents _ _)).whole

end Ready

end VersionMatrix
