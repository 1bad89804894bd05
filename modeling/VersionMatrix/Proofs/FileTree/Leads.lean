import VersionMatrix.Proofs.FileTree.Names

/-! The way that a path takes through a tree: which directories it passes, which links it follows and
where it arrives. A way depends only on the entries it meets. -/
namespace VersionMatrix.FileTree

variable {tree other : FileTree} {sees sees' : Location → Entry → Prop} {approach : Approach}
  {links left : Nat} {here dir : Location} {step : String} {names rest more : List String}

/-- Whether a step of a path names an entry of the directory that it is taken from. -/
structure Descends (step : String) : Prop where
  proper : ¬(step = "" ∨ step = ".")
  down : step ≠ ".."
  short : step.utf8ByteSize ≤ nameLimit

theorem Descends.of_isName (proper : Path.isName step = true)
    (short : step.utf8ByteSize ≤ nameLimit) : Descends step where
  proper idle := idle.elim (Path.ne_empty_of_isName proper) (Path.ne_dot_of_isName proper)
  down := Path.ne_dots_of_isName proper
  short := short

/-- Steps lead from one directory to another. Of the links that may be followed some are left in the
end. What stands where is told by `sees`. -/
inductive Leads (sees : Location → Entry → Prop) :
    Nat → Location → List String → Nat → Location → Prop where
  | done {links : Nat} {here : Location} : Leads sees links here [] links here
  | stay {links left : Nat} {here dir : Location} {step : String} {rest : List String}
      (idle : step = "" ∨ step = ".") (later : Leads sees links here rest left dir) :
      Leads sees links here (step :: rest) left dir
  | up {links left : Nat} {here dir : Location} {rest : List String}
      (later : Leads sees links here.dropLast rest left dir) :
      Leads sees links here (".." :: rest) left dir
  | down {links left : Nat} {here dir : Location} {step : String} {rest : List String}
      (descends : Descends step) (found : sees (here ++ [step]) .directory)
      (later : Leads sees links (here ++ [step]) rest left dir) :
      Leads sees links here (step :: rest) left dir
  | follow {links left : Nat} {here dir : Location} {step target : String} {rest : List String}
      (descends : Descends step) (found : sees (here ++ [step]) (.link target))
      (later : Leads sees links (if Path.isAbsolute target then [] else here)
        (Path.steps target ++ rest) left dir) :
      Leads sees (links + 1) here (step :: rest) left dir

/-- Who sees more finds the same way. -/
theorem Leads.mono (leads : Leads sees links here names left dir)
    (more : ∀ loc entry, sees loc entry → sees' loc entry) :
    Leads sees' links here names left dir := by
  induction leads with
  | done => exact .done
  | stay idle _ ih => exact .stay idle ih
  | up _ ih => exact .up ih
  | down descends found _ ih => exact .down descends (more _ _ found) ih
  | follow descends found _ ih => exact .follow descends (more _ _ found) ih

/-- Only directories and links are on the way. -/
theorem Leads.passes (leads : Leads sees links here names left dir) :
    Leads (fun loc entry => sees loc entry ∧ (entry = .directory ∨ ∃ target, entry = .link target))
      links here names left dir := by
  induction leads with
  | done => exact .done
  | stay idle _ ih => exact .stay idle ih
  | up _ ih => exact .up ih
  | down descends found _ ih => exact .down descends ⟨found, Or.inl rfl⟩ ih
  | follow descends found _ ih => exact .follow descends ⟨found, Or.inr ⟨_, rfl⟩⟩ ih

/-- Steps that lead on from where others have led. -/
theorem Leads.append {last : Nat} {final : Location}
    (first : Leads sees links here names left dir)
    (second : Leads sees left dir more last final) :
    Leads sees links here (names ++ more) last final := by
  induction first with
  | done => exact second
  | stay idle _ ih => exact .stay idle (ih second)
  | up _ ih => exact .up (ih second)
  | down descends found _ ih => exact .down descends found (ih second)
  | follow descends found _ ih =>
      exact .follow descends found (List.append_assoc _ _ more ▸ ih second)

/-- The empty step at the end leads nowhere. -/
theorem Leads.concat_empty (leads : Leads sees links here names left dir) :
    Leads sees links here (names ++ [""]) left dir :=
  leads.append (.stay (Or.inl rfl) .done)

theorem Leads.of_concat_empty (leads : Leads sees links here (names ++ [""]) left dir) :
    Leads sees links here names left dir := by
  generalize whole : names ++ [""] = steps at leads
  induction leads generalizing names with
  | done => simp at whole
  | @stay links left here dir step rest idle later ih =>
      cases names with
      | nil =>
          obtain ⟨-, rfl⟩ := List.cons.inj whole
          exact later
      | cons first names =>
          obtain ⟨rfl, rfl⟩ := List.cons.inj whole
          exact .stay idle (ih rfl)
  | @up links left here dir rest later ih =>
      cases names with
      | nil => exact absurd (List.cons.inj whole).1 (by decide)
      | cons first names =>
          obtain ⟨rfl, rfl⟩ := List.cons.inj whole
          exact .up (ih rfl)
  | @down links left here dir step rest descends found later ih =>
      cases names with
      | nil => exact absurd (Or.inl (List.cons.inj whole).1.symm) descends.proper
      | cons first names =>
          obtain ⟨rfl, rfl⟩ := List.cons.inj whole
          exact .down descends found (ih rfl)
  | @follow links left here dir step target rest descends found later ih =>
      cases names with
      | nil => exact absurd (Or.inl (List.cons.inj whole).1.symm) descends.proper
      | cons first names =>
          obtain ⟨rfl, rfl⟩ := List.cons.inj whole
          exact .follow descends found (ih (List.append_assoc ..))

/-- Whether only slashes are left after the name of a file that is to be created. -/
def asksDirectory (approach : Approach) (rest : List String) : Bool :=
  approach == .creating && !rest.isEmpty && rest.all (· == "")

/-- Whether more than slashes is left of a path. -/
def GoesOn (rest : List String) : Prop := ∃ step ∈ rest, step ≠ ""

theorem all_eq_empty_of_goesOn (goesOn : GoesOn rest) : rest.all (· == "") = false := by
  obtain ⟨step, member, filled⟩ := goesOn
  exact List.all_eq_false.2 ⟨step, member, by simpa using filled⟩

theorem isEmpty_of_goesOn (goesOn : GoesOn rest) : rest.isEmpty = false := by
  obtain ⟨step, member, -⟩ := goesOn
  exact List.isEmpty_eq_false_iff.2 (List.ne_nil_of_mem member)

theorem asksDirectory_of_goesOn (goesOn : GoesOn rest) : asksDirectory approach rest = false := by
  simp [asksDirectory, all_eq_empty_of_goesOn goesOn]

theorem GoesOn.append (names : List String) (goesOn : GoesOn more) : GoesOn (names ++ more) := by
  obtain ⟨step, member, filled⟩ := goesOn
  exact ⟨step, List.mem_append_right _ member, filled⟩

theorem walk_nil : tree.walk approach links here [] = .ok (.entry here .directory) := by
  cases links <;> rfl

theorem walk_stay (idle : step = "" ∨ step = ".") :
    tree.walk approach links here (step :: rest) = tree.walk approach links here rest := by
  cases links <;> simp [walk, takeSteps, idle]

/-- A walk goes up at two points, and stays at the root. -/
theorem walk_up :
    tree.walk approach links here (".." :: rest) =
      tree.walk approach links here.dropLast rest := by
  cases links <;> simp [walk, takeSteps]

/-- Some names are refused before they are looked up, in whatever tree. -/
theorem walk_refused (proper : ¬(step = "" ∨ step = ".")) (down : step ≠ "..")
    (refused : asksDirectory approach rest = true ∨ nameLimit < step.utf8ByteSize) :
    ∃ fault, ∀ tree : FileTree, tree.walk approach links here (step :: rest) = .error fault := by
  by_cases asked : asksDirectory approach rest = true
  · refine ⟨.isDirectory, fun tree => ?_⟩
    rw [asksDirectory] at asked
    cases links <;> simp [walk, takeSteps, proper, down, asked]
  · have long := refused.resolve_left asked
    refine ⟨.nameTooLong, fun tree => ?_⟩
    rw [asksDirectory] at asked
    cases links <;> simp [walk, takeSteps, proper, down, asked, long]

/-- What a walk does at a link that it is to follow. -/
def followLink (tree : FileTree) (approach : Approach) (here : Location) (target : String)
    (rest : List String) : Nat → Except FileFault Destination
  | 0 => .error .tooManyLinks
  | links + 1 =>
    tree.walk approach links (if Path.isAbsolute target then [] else here)
      (Path.steps target ++ rest)

/-- A walk looks up the name it comes to. -/
theorem walk_name (descends : Descends step)
    (asked : asksDirectory approach rest = false) :
    tree.walk approach links here (step :: rest) =
      match tree.get? (here ++ [step]) with
      | none =>
        if rest.all (· == "") then .ok (.vacant here step (!rest.isEmpty)) else .error .notFound
      | some .directory => tree.walk approach links (here ++ [step]) rest
      | some (.link target) =>
        if rest.isEmpty && approach == .itself then .ok (.entry (here ++ [step]) (.link target))
        else tree.followLink approach here target rest links
      | some found => if rest.isEmpty then .ok (.entry (here ++ [step]) found)
          else .error .notDirectory := by
  have short : ¬ nameLimit < step.utf8ByteSize := Nat.not_lt.2 descends.short
  rw [asksDirectory] at asked
  cases links <;>
    simp only [walk, takeSteps, if_neg descends.proper, if_neg descends.down, asked,
      Bool.false_eq_true, if_false, gt_iff_lt, if_neg short] <;> rfl

/-- A walk that arrives has not been refused for its text. -/
theorem asked_of_walk {destination : Destination} (descends : Descends step)
    (arrives : tree.walk approach links here (step :: rest) = .ok destination) :
    asksDirectory approach rest = false := by
  by_contra asked
  obtain ⟨fault, stops⟩ := @walk_refused approach links here step rest descends.proper descends.down
    (Or.inl (by simpa using asked))
  rw [stops] at arrives
  cases arrives

/-- A walk goes along a way to its end and on from there. -/
theorem Leads.walk_append (leads : Leads sees links here names left dir)
    (seen : ∀ loc entry, sees loc entry → tree.get? loc = some entry) (goesOn : GoesOn more) :
    tree.walk approach links here (names ++ more) = tree.walk approach left dir more := by
  have asked : ∀ rest : List String, asksDirectory approach (rest ++ more) = false :=
    fun rest => asksDirectory_of_goesOn (goesOn.append rest)
  induction leads with
  | done => rfl
  | stay idle _ ih =>
      rw [List.cons_append, walk_stay idle]
      exact ih
  | up _ ih =>
      rw [List.cons_append, walk_up]
      exact ih
  | @down _ _ _ _ _ rest descends found _ ih =>
      rw [List.cons_append, walk_name descends (asked rest), seen _ _ found]
      exact ih
  | @follow _ _ _ _ _ _ rest descends found _ ih =>
      rw [List.cons_append, walk_name descends (asked rest), seen _ _ found]
      simp only [isEmpty_of_goesOn (goesOn.append rest), Bool.false_and, Bool.false_eq_true,
        if_false, followLink]
      rw [← List.append_assoc]
      exact ih

/-- A walk through all links goes along a way to its end. -/
theorem Leads.walk_through (leads : Leads sees links here names left dir)
    (seen : ∀ loc entry, sees loc entry → tree.get? loc = some entry) :
    tree.walk .through links here names = .ok (.entry dir .directory) := by
  induction leads with
  | done => exact walk_nil
  | stay idle _ ih =>
      rw [walk_stay idle]
      exact ih
  | up _ ih =>
      rw [walk_up]
      exact ih
  | down descends found _ ih =>
      rw [walk_name descends rfl, seen _ _ found]
      exact ih
  | follow descends found _ ih =>
      rw [walk_name descends rfl, seen _ _ found]
      simp only [followLink]
      rw [if_neg (by simp)]
      exact ih

/-- A fact about walks may be shown step by step: a walk goes on with the rest of its steps, and at a
link with fewer links to follow. -/
theorem walk_induction {motive : Nat → Location → List String → Prop}
    (nil : ∀ links here, motive links here [])
    (stay : ∀ links here step rest, step = "" ∨ step = "." → motive links here rest →
      motive links here (step :: rest))
    (up : ∀ links here rest, motive links here.dropLast rest → motive links here (".." :: rest))
    (long : ∀ links here step rest, ¬(step = "" ∨ step = ".") → step ≠ ".." →
      nameLimit < step.utf8ByteSize → motive links here (step :: rest))
    (name : ∀ links here step rest, Descends step → motive links (here ++ [step]) rest →
      (∀ fewer there steps, links = fewer + 1 → motive fewer there (steps ++ rest)) →
      motive links here (step :: rest))
    (links : Nat) (here : Location) (names : List String) : motive links here names := by
  induction links using Nat.strongRecOn generalizing here names with
  | ind links fewerLinks =>
      induction names generalizing here with
      | nil => exact nil links here
      | cons step rest ih =>
          by_cases idle : step = "" ∨ step = "."
          · exact stay links here step rest idle (ih here)
          by_cases isUp : step = ".."
          · exact isUp ▸ up links here rest (ih here.dropLast)
          by_cases isLong : nameLimit < step.utf8ByteSize
          · exact long links here step rest idle isUp isLong
          · refine name links here step rest ⟨idle, isUp, Nat.not_lt.1 isLong⟩ (ih _) ?_
            rintro fewer there steps rfl
            exact fewerLinks fewer (Nat.lt_succ_self fewer) there (steps ++ rest)

/-- What is seen when some of the tree is hidden. -/
def Shows (tree : FileTree) (hidden : Location → Prop) (loc : Location) (entry : Entry) : Prop :=
  ¬ hidden loc ∧ tree.get? loc = some entry

/-- A walk that arrives in a directory has taken a way to it. -/
theorem exists_leads_of_walk
    (arrives : tree.walk approach links here names = .ok (.entry dir .directory)) :
    ∃ left, Leads (fun loc entry => tree.get? loc = some entry) links here names left dir := by
  induction links, here, names using walk_induction with
  | nil links here =>
      rw [walk_nil] at arrives
      cases arrives
      exact ⟨_, .done⟩
  | stay links here step rest idle ih =>
      rw [walk_stay idle] at arrives
      obtain ⟨left, later⟩ := ih arrives
      exact ⟨left, .stay idle later⟩
  | up links here rest ih =>
      rw [walk_up] at arrives
      obtain ⟨left, later⟩ := ih arrives
      exact ⟨left, .up later⟩
  | long links here step rest idle isUp isLong =>
      obtain ⟨fault, stops⟩ := @walk_refused approach links here step rest idle isUp (Or.inr isLong)
      rw [stops] at arrives
      cases arrives
  | name links here step rest descends down follow =>
      have asked := asked_of_walk descends arrives
      rw [walk_name descends asked] at arrives
      cases found : tree.get? (here ++ [step]) with
      | none =>
          simp only [found] at arrives
          split at arrives <;> cases arrives
      | some entry =>
          cases entry with
          | directory =>
              simp only [found] at arrives
              obtain ⟨left, later⟩ := down arrives
              exact ⟨left, .down descends found later⟩
          | link target =>
              simp only [found] at arrives
              split at arrives
              · cases arrives
              cases links with
              | zero => cases arrives
              | succ fewer =>
                  obtain ⟨left, later⟩ := follow fewer _ _ rfl arrives
                  exact ⟨left, .follow descends found later⟩
          | _ =>
              simp only [found] at arrives
              split at arrives <;> cases arrives

/-- What stands where a walk has arrived: the entry that was found, or nothing. -/
def Stands (tree : FileTree) : Destination → Prop
  | .entry loc found => tree.get? loc = some found
  | .vacant dir name _ => tree.get? (dir ++ [name]) = none

/-- What a walk arrives at is there, or is a free name in a directory that is there. -/
theorem stands_of_walk {destination : Destination} (start : tree.get? here = some .directory)
    (arrives : tree.walk approach links here names = .ok destination) : tree.Stands destination := by
  induction links, here, names using walk_induction with
  | nil links here =>
      rw [walk_nil] at arrives
      exact Except.ok.inj arrives ▸ start
  | stay links here step rest idle ih =>
      rw [walk_stay idle] at arrives
      exact ih start arrives
  | up links here rest ih =>
      rw [walk_up] at arrives
      exact ih (get?_dropLast_of_get? start) arrives
  | long links here step rest idle isUp isLong =>
      obtain ⟨fault, stops⟩ := @walk_refused approach links here step rest idle isUp (Or.inr isLong)
      rw [stops] at arrives
      cases arrives
  | name links here step rest descends down follow =>
      rw [walk_name descends (asked_of_walk descends arrives)] at arrives
      cases found : tree.get? (here ++ [step]) with
      | none =>
          simp only [found] at arrives
          split at arrives
          · exact Except.ok.inj arrives ▸ found
          · cases arrives
      | some entry =>
          cases entry with
          | directory =>
              simp only [found] at arrives
              exact down found arrives
          | link target =>
              simp only [found] at arrives
              split at arrives
              · exact Except.ok.inj arrives ▸ found
              cases links with
              | zero => cases arrives
              | succ fewer =>
                  refine follow fewer _ _ rfl ?_ arrives
                  split
                  · exact get?_root tree
                  · exact start
          | _ =>
              simp only [found] at arrives
              split at arrives
              · exact Except.ok.inj arrives ▸ found
              · cases arrives

/-- A walk that comes to any end has taken a way through all but its last steps. -/
theorem exists_leads_of_walk_append {destination : Destination} (goesOn : GoesOn more)
    (arrives : tree.walk approach links here (names ++ more) = .ok destination) :
    ∃ left dir, Leads (fun loc entry => tree.get? loc = some entry) links here names left dir := by
  induction links, here, names using walk_induction with
  | nil links here => exact ⟨_, _, .done⟩
  | stay links here step rest idle ih =>
      rw [List.cons_append, walk_stay idle] at arrives
      obtain ⟨left, dir, later⟩ := ih arrives
      exact ⟨left, dir, .stay idle later⟩
  | up links here rest ih =>
      rw [List.cons_append, walk_up] at arrives
      obtain ⟨left, dir, later⟩ := ih arrives
      exact ⟨left, dir, .up later⟩
  | long links here step rest idle isUp isLong =>
      obtain ⟨fault, stops⟩ :=
        @walk_refused approach links here step (rest ++ more) idle isUp (Or.inr isLong)
      rw [List.cons_append, stops] at arrives
      cases arrives
  | name links here step rest descends down follow =>
      have open' := goesOn.append rest
      rw [List.cons_append, walk_name descends (asksDirectory_of_goesOn open')] at arrives
      simp only [all_eq_empty_of_goesOn open', isEmpty_of_goesOn open', Bool.false_and,
        Bool.false_eq_true, if_false] at arrives
      cases found : tree.get? (here ++ [step]) with
      | none =>
          rw [found] at arrives
          cases arrives
      | some entry =>
          cases entry with
          | directory =>
              simp only [found] at arrives
              obtain ⟨left, dir, later⟩ := down arrives
              exact ⟨left, dir, .down descends found later⟩
          | link target =>
              simp only [found] at arrives
              cases links with
              | zero => cases arrives
              | succ fewer =>
                  rw [followLink, ← List.append_assoc] at arrives
                  obtain ⟨left, dir, later⟩ := follow fewer _ _ rfl arrives
                  exact ⟨left, dir, .follow descends found later⟩
          | _ =>
              rw [found] at arrives
              cases arrives

/-- The locations that are looked up when steps are taken. What to do at a link is left to `onLink`. -/
def lookUps (tree : FileTree) (onLink : Location → List String → List Location) (here : Location) :
    List String → List Location
  | [] => []
  | step :: rest =>
    if step = "" ∨ step = "." then lookUps tree onLink here rest
    else if step = ".." then lookUps tree onLink here.dropLast rest
    else
      let there := here ++ [step]
      there :: match tree.get? there with
        | some .directory => lookUps tree onLink there rest
        | some (.link target) =>
          onLink (if Path.isAbsolute target then [] else here) (Path.steps target ++ rest)
        | _ => []

/-- The locations that are looked up on a walk through all links. -/
def route (tree : FileTree) : (links : Nat) → Location → List String → List Location
  | 0 => tree.lookUps fun _ _ => []
  | links + 1 => tree.lookUps (tree.route links)

theorem route_stay (idle : step = "" ∨ step = ".") :
    tree.route links here (step :: rest) = tree.route links here rest := by
  cases links <;> simp [route, lookUps, idle]

theorem route_up :
    tree.route links here (".." :: rest) = tree.route links here.dropLast rest := by
  cases links <;> simp [route, lookUps]

/-- A step down looks up the entry that it names. -/
theorem mem_route (proper : ¬(step = "" ∨ step = ".")) (down : step ≠ "..") :
    here ++ [step] ∈ tree.route links here (step :: rest) := by
  cases links <;> simp [route, lookUps, proper, down]

/-- Past a directory the route goes on below it. -/
theorem route_directory (descends : Descends step)
    (found : tree.get? (here ++ [step]) = some .directory) :
    tree.route links here (step :: rest) =
      (here ++ [step]) :: tree.route links (here ++ [step]) rest := by
  cases links <;> simp [route, lookUps, descends.proper, descends.down, found]

/-- Past a link the route goes on where the link leads, with one link less to follow. -/
theorem route_link {target : String} (descends : Descends step)
    (found : tree.get? (here ++ [step]) = some (.link target)) :
    tree.route (links + 1) here (step :: rest) =
      (here ++ [step]) :: tree.route links (if Path.isAbsolute target then [] else here)
        (Path.steps target ++ rest) := by
  simp [route, lookUps, descends.proper, descends.down, found]

/-- More steps look up more. -/
theorem lookUps_subset_append {onLink : Location → List String → List Location}
    (inner : ∀ there steps, onLink there steps ⊆ onLink there (steps ++ more)) :
    tree.lookUps onLink here names ⊆ tree.lookUps onLink here (names ++ more) := by
  induction names generalizing here with
  | nil => exact List.nil_subset _
  | cons step rest ih =>
      rw [List.cons_append, lookUps, lookUps]
      split
      · exact ih
      split
      · exact ih
      refine List.cons_subset_cons _ ?_
      cases tree.get? (here ++ [step]) with
      | none => exact List.Subset.refl _
      | some entry =>
          cases entry with
          | directory => exact ih
          | link target =>
              simp only [← List.append_assoc]
              exact inner _ _
          | _ => exact List.Subset.refl _

/-- On a longer way nothing less is looked up. -/
theorem route_subset_append :
    tree.route links here names ⊆ tree.route links here (names ++ more) := by
  induction links generalizing here names with
  | zero => exact lookUps_subset_append fun _ _ => List.Subset.refl _
  | succ links ih => exact lookUps_subset_append fun _ _ => ih

/-- A slash at the end of a path looks up nothing more. -/
theorem lookUps_concat_empty {onLink : Location → List String → List Location}
    (inner : ∀ there steps, onLink there (steps ++ [""]) = onLink there steps) :
    tree.lookUps onLink here (names ++ [""]) = tree.lookUps onLink here names := by
  induction names generalizing here with
  | nil => simp [lookUps]
  | cons step rest ih =>
      rw [List.cons_append, lookUps, lookUps, ih, ih]
      simp only [ih, ← List.append_assoc, inner]

/-- The empty step at the end looks nothing up. -/
theorem route_concat_empty :
    tree.route links here (names ++ [""]) = tree.route links here names := by
  induction links generalizing here names with
  | zero => exact lookUps_concat_empty fun _ _ => rfl
  | succ links ih => exact lookUps_concat_empty fun _ _ => ih

/-- A walk depends only on the locations that are looked up on it. -/
theorem walk_congr
    (agree : ∀ loc ∈ tree.route links here names, tree.get? loc = other.get? loc) :
    tree.walk approach links here names = other.walk approach links here names := by
  induction links, here, names using walk_induction with
  | nil links here => rw [walk_nil, walk_nil]
  | stay links here step rest idle ih =>
      rw [route_stay idle] at agree
      rw [walk_stay idle, walk_stay idle, ih agree]
  | up links here rest ih =>
      rw [route_up] at agree
      rw [walk_up, walk_up, ih agree]
  | long links here step rest idle isUp isLong =>
      obtain ⟨fault, stops⟩ := @walk_refused approach links here step rest idle isUp (Or.inr isLong)
      rw [stops tree, stops other]
  | name links here step rest descends down follow =>
      by_cases asked : asksDirectory approach rest = true
      · obtain ⟨fault, stops⟩ :=
          @walk_refused approach links here step rest descends.proper descends.down (Or.inl asked)
        rw [stops tree, stops other]
      have asked := Bool.eq_false_iff.2 asked
      rw [walk_name descends asked, walk_name descends asked,
        ← agree _ (mem_route descends.proper descends.down)]
      cases found : tree.get? (here ++ [step]) with
      | none => rfl
      | some entry =>
          cases entry with
          | directory =>
              rw [route_directory descends found] at agree
              exact down fun loc member => agree loc (List.mem_cons_of_mem _ member)
          | link target =>
              cases links with
              | zero => rfl
              | succ fewer =>
                  rw [route_link descends found] at agree
                  have later := follow fewer _ _ rfl
                    fun loc member => agree loc (List.mem_cons_of_mem _ member)
                  simp only [followLink, later]
          | _ => rfl

/-- Trees in which the same stands on the way are walked through in the same way. -/
theorem lookUps_congr {onLink onLink' : Location → List String → List Location}
    (inner : ∀ there steps, (∀ loc ∈ onLink there steps, tree.get? loc = other.get? loc) →
      onLink there steps = onLink' there steps)
    (agree : ∀ loc ∈ tree.lookUps onLink here names, tree.get? loc = other.get? loc) :
    tree.lookUps onLink here names = other.lookUps onLink' here names := by
  induction names generalizing here with
  | nil => rfl
  | cons step rest ih =>
      by_cases idle : step = "" ∨ step = "."
      · simp only [lookUps, if_pos idle] at agree ⊢
        exact ih agree
      by_cases isUp : step = ".."
      · simp only [lookUps, if_neg idle, if_pos isUp] at agree ⊢
        exact ih agree
      simp only [lookUps, if_neg idle, if_neg isUp, List.forall_mem_cons] at agree ⊢
      obtain ⟨here', later⟩ := agree
      rw [← here']
      cases found : tree.get? (here ++ [step]) with
      | none => rfl
      | some entry =>
          rw [found] at later
          cases entry with
          | directory => exact congrArg (List.cons _) (ih later)
          | link target => exact congrArg (List.cons _) (inner _ _ later)
          | _ => rfl

/-- What is looked up on a walk depends only on the locations that are looked up. -/
theorem route_congr
    (agree : ∀ loc ∈ tree.route links here names, tree.get? loc = other.get? loc) :
    tree.route links here names = other.route links here names := by
  induction links generalizing here names with
  | zero => exact lookUps_congr (fun _ _ _ => rfl) agree
  | succ links ih => exact lookUps_congr (fun _ _ => ih) agree

/-- A way that avoids what is hidden can still be taken. -/
theorem Leads.avoid {hidden : Location → Prop}
    (leads : Leads (fun loc entry => tree.get? loc = some entry) links here names left dir)
    (clear : ∀ loc ∈ tree.route links here names, ¬ hidden loc) :
    Leads (tree.Shows hidden) links here names left dir := by
  induction leads with
  | done => exact .done
  | stay idle _ ih =>
      rw [route_stay idle] at clear
      exact .stay idle (ih clear)
  | up _ ih =>
      rw [route_up] at clear
      exact .up (ih clear)
  | down descends found _ ih =>
      rw [route_directory descends found, List.forall_mem_cons] at clear
      exact .down descends ⟨clear.1, found⟩ (ih clear.2)
  | follow descends found _ ih =>
      rw [route_link descends found, List.forall_mem_cons] at clear
      exact .follow descends ⟨clear.1, found⟩ (ih clear.2)

/-- Only one end can be reached. -/
theorem Leads.unique {left' : Nat} {dir' : Location}
    (leads : Leads (fun loc entry => tree.get? loc = some entry) links here names left dir)
    (leads' : Leads (fun loc entry => tree.get? loc = some entry) links here names left' dir') :
    dir = dir' := by
  have arrives := leads.walk_through fun _ _ found => found
  rw [leads'.walk_through fun _ _ found => found] at arrives
  cases arrives
  rfl

end VersionMatrix.FileTree
