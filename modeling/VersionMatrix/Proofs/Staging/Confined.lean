import VersionMatrix.Proofs.FileTree.Operations

/-! Actions that keep to their own part of the disk. What an action does, operation by operation, is
the same on every disk that differs in foreign parts only. -/
namespace VersionMatrix

open FileTree Disk

/-- What is asked of the result of an action and of the disk that it leaves. -/
abbrev Outlook (α : Type) := Except StageError α → Disk → Prop

namespace DiskAction

variable {α β : Type} {own foreign : Location → Prop} {disk : Disk} {path : String}

/-- What is asked of an action holds when nothing comes in between. -/
def Ends (action : DiskAction α) (disk : Disk) (post : Outlook α) : Prop :=
  post (action.run disk).1 (action.run disk).2

/-- From a disk on, every operation of an action sees nothing foreign and changes nothing but its
own, and what is asked for holds in the end. -/
def Confined (own foreign : Location → Prop) : DiskAction α → Disk → Outlook α → Prop
  | .done result, disk, post => post result disk
  | .operate effect next, disk, post =>
    (∀ found, AgreeOff foreign disk found → next found = next disk ∧
      AgreeOff foreign (effect disk) (effect found) ∧ AgreeOff own found (effect found)) ∧
    Confined own foreign (next disk) (effect disk) post

/-- A confined action may be said to end in less. -/
theorem Confined.mono {action : DiskAction α} {post post' : Outlook α}
    (confined : Confined own foreign action disk post)
    (weaker : ∀ result disk, post result disk → post' result disk) :
    Confined own foreign action disk post' := by
  induction action generalizing disk with
  | done result => exact weaker _ _ confined
  | operate effect next ih => exact ⟨confined.1, ih _ confined.2⟩

/-- Who may change more may do the same. -/
theorem Confined.widen {own' : Location → Prop} {action : DiskAction α} {post : Outlook α}
    (confined : Confined own foreign action disk post) (more : ∀ loc, own loc → own' loc) :
    Confined own' foreign action disk post := by
  induction action generalizing disk with
  | done result => exact confined
  | operate effect next ih =>
      refine ⟨fun found agree => ?_, ih _ confined.2⟩
      obtain ⟨same, effects, kept⟩ := confined.1 found agree
      exact ⟨same, effects, kept.mono more⟩

/-- A confined action ends as it does when it is alone. -/
theorem Confined.ends {action : DiskAction α} {post : Outlook α}
    (confined : Confined own foreign action disk post) : action.Ends disk post := by
  induction action generalizing disk with
  | done result => exact confined
  | operate effect next ih => exact ih _ confined.2

/-- Confined actions that follow one another are confined. -/
theorem Confined.andThen {action : DiskAction α} {after : α → DiskAction β} {mid : Outlook α}
    {post : Outlook β} (first : Confined own foreign action disk mid)
    (fails : ∀ error disk, mid (.error error) disk → post (.error error) disk)
    (goesOn : ∀ value disk, mid (.ok value) disk → Confined own foreign (after value) disk post) :
    Confined own foreign (action >>= after) disk post := by
  induction action generalizing disk with
  | done result =>
      cases result with
      | ok value => exact goesOn value disk first
      | error error => exact fails error disk first
  | operate effect next ih =>
      refine ⟨fun found agree => ?_, ih _ first.2⟩
      obtain ⟨same, effects, kept⟩ := first.1 found agree
      exact ⟨congrArg (DiskAction.andThen · after) same, effects, kept⟩

/-- A confined action with a confined handler is confined. -/
theorem Confined.recover {action : DiskAction α} {handler : StageError → DiskAction α}
    {mid post : Outlook α} (first : Confined own foreign action disk mid)
    (succeeds : ∀ value disk, mid (.ok value) disk → post (.ok value) disk)
    (handles : ∀ error disk, mid (.error error) disk →
      Confined own foreign (handler error) disk post) :
    Confined own foreign (tryCatch action handler) disk post := by
  induction action generalizing disk with
  | done result =>
      cases result with
      | ok value => exact succeeds value disk first
      | error error => exact handles error disk first
  | operate effect next ih =>
      refine ⟨fun found agree => ?_, ih _ first.2⟩
      obtain ⟨same, effects, kept⟩ := first.1 found agree
      exact ⟨congrArg (DiskAction.recover · handler) same, effects, kept⟩

/-- A look at the disk that shows the same whatever is foreign. -/
theorem confined_inspect {look : Disk → α} {after : α → DiskAction β} {value : α}
    {post : Outlook β} (sees : ∀ found, AgreeOff foreign disk found → look found = value)
    (goesOn : Confined own foreign (after value) disk post) :
    Confined own foreign (inspect look >>= after) disk post := by
  have here := sees disk (AgreeOff.refl foreign disk)
  refine ⟨fun found agree => ⟨?_, agree, AgreeOff.refl own found⟩, ?_⟩
  · simp only [sees found agree, here]
  · simp only [here]
    exact goesOn

/-- A question to the disk that has the same answer whatever is foreign. -/
theorem confined_query {ask : Disk → Except FileFault α} {after : α → DiskAction β}
    {answer : Except FileFault α} {post : Outlook β}
    (sees : ∀ found, AgreeOff foreign disk found → ask found = answer)
    (fails : ∀ fault, answer = .error fault → post (.error (.io path (.file fault))) disk)
    (goesOn : ∀ value, answer = .ok value → Confined own foreign (after value) disk post) :
    Confined own foreign (query path ask >>= after) disk post := by
  have here := sees disk (AgreeOff.refl foreign disk)
  refine ⟨fun found agree => ⟨?_, agree, AgreeOff.refl own found⟩, ?_⟩
  · simp only [sees found agree, here]
  · simp only [here]
    cases answer with
    | ok value => exact goesOn value rfl
    | error fault => exact fails fault rfl

/-- A change that is refused wherever the foreign parts are other ones. -/
theorem confined_change_of_error {act : Disk → Except FileFault Disk} {fault : FileFault}
    {post : Outlook Unit}
    (refused : ∀ found, AgreeOff foreign disk found → act found = .error fault)
    (holds : post (.error (.io path (.file fault))) disk) :
    Confined own foreign (change path act) disk post := by
  have here := refused disk (AgreeOff.refl foreign disk)
  have idle : ∀ found, AgreeOff foreign disk found → (act found).toOption.getD found = found :=
    fun found agree => by rw [refused found agree]; rfl
  refine ⟨fun found agree => ⟨?_, ?_, ?_⟩, ?_⟩
  · simp only [refused found agree, here]
  · simp only [idle found agree, idle disk (AgreeOff.refl foreign disk)]
    exact agree
  · simp only [idle found agree]
    exact AgreeOff.refl own found
  · simp only [idle disk (AgreeOff.refl foreign disk)]
    simp only [here]
    exact holds

/-- A change that puts an entry wherever the foreign parts are other ones. -/
theorem confined_change_of_put {act : Disk → Except FileFault Disk} {loc : Location}
    {entry : Entry} {post : Outlook Unit}
    (puts : ∀ found, AgreeOff foreign disk found →
      act found = .ok (found.modifyTree (·.put loc entry)))
    (owned : own loc) (here : ¬ foreign loc) (parent : ¬ foreign loc.dropLast)
    (holds : post (.ok ()) (disk.modifyTree (·.put loc entry))) :
    Confined own foreign (change path act) disk post := by
  have onDisk := puts disk (AgreeOff.refl foreign disk)
  have changed : ∀ found, AgreeOff foreign disk found →
      (act found).toOption.getD found = found.modifyTree (·.put loc entry) :=
    fun found agree => by rw [puts found agree]; rfl
  refine ⟨fun found agree => ⟨?_, ?_, ?_⟩, ?_⟩
  · simp only [puts found agree, onDisk]
    rfl
  · simp only [changed found agree, changed disk (AgreeOff.refl foreign disk)]
    exact agree.put here parent
  · simp only [changed found agree]
    exact agreeOff_put found owned
  · simp only [changed disk (AgreeOff.refl foreign disk)]
    simp only [onDisk]
    exact holds

end DiskAction

end VersionMatrix
