import VersionMatrix.Proofs.Run.History
import VersionMatrix.Proofs.Staging.Context

/-! What a run asks the engine to build: the project as the filter lets it through, with the image
definition of the version at its top. -/
namespace VersionMatrix.Job

open FileTree Disk DiskAction

variable {pipeline : Pipeline} {job : Job} {initial left disk : Disk} {events : List RunEvent}
  {phase : Phase} {image : String} {context : BuildContext}

/-- The disk that a run leaves when it has copied its project and written its image definition. -/
def Prepared (pipeline : Pipeline) (job : Job) (initial left : Disk) : Prop :=
  ∃ copied, (copyWork pipeline job).run initial = (.ok (), copied) ∧
    (templateWork pipeline job).run copied = (.ok (), left)

/-- What a run that has the disk to itself has made of it when it is in a phase before the build. -/
def Prepares (pipeline : Pipeline) (job : Job) (initial left : Disk) : Phase → Prop
  | .admitted | .copying _ => left = initial
  | .working stage rest after =>
    ∃ image, (stage = .copying ∧ after = .templating image ∧
        rest.run left = (copyWork pipeline job).run initial) ∨
      (stage = .templating ∧ after = .pulling image ∧
        ∃ copied, (copyWork pipeline job).run initial = (.ok (), copied) ∧
          rest.run left = (templateWork pipeline job).run copied)
  | .templating _ => (copyWork pipeline job).run initial = (.ok (), left)
  | .pulling _ | .pulled .. | .building _ => Prepared pipeline job initial left
  | .built .. | .running _ | .ran _ | .leaving _ | .settled _ => True

/-- A step that goes on or fails leaves the disk as prepared, if the phase to go on to does. -/
theorem prepares_proceed {α : Type} {stage : Stage} {more : List RunEvent}
    {result : Except StageError α} {next : α → Phase}
    (going : ∀ value, result = .ok value → Prepares pipeline job initial disk (next value)) :
    Prepares pipeline job initial (proceed job stage disk more result next).disk
      (proceed job stage disk more result next).phase := by
  cases result with
  | ok value => exact going value rfl
  | error source => exact trivial

/-- What a run has made of the disk stays in step with its phase. -/
theorem prepares_act (prepares : Prepares pipeline job initial left phase) :
    Prepares pipeline job initial (act pipeline job left phase).disk
      (act pipeline job left phase).phase := by
  cases phase with
  | admitted =>
      rw [act]
      split
      next => exact trivial
      next => exact prepares
  | copying image =>
      obtain rfl : left = initial := prepares
      exact ⟨image, Or.inl ⟨rfl, rfl, rfl⟩⟩
  | templating image => exact ⟨image, Or.inr ⟨rfl, rfl, left, prepares, rfl⟩⟩
  | working stage rest after =>
      cases rest with
      | operate effect next => exact prepares
      | done result =>
          obtain ⟨image, ⟨-, rfl, same⟩ | ⟨-, rfl, copied, copies, same⟩⟩ := prepares
          · refine prepares_proceed fun value isOk => ?_
            rw [isOk] at same
            exact same.symm
          · refine prepares_proceed fun value isOk => ⟨copied, copies, ?_⟩
            rw [isOk] at same
            exact same.symm
  | pulling image => exact prepares
  | pulled image answer => exact prepares_proceed fun _ _ => prepares
  | building image =>
      rw [act]
      split <;> exact trivial
  | built image answer => exact prepares_proceed fun _ _ => trivial
  | _ => exact trivial

/-- Events without calls ask for no build. -/
theorem build_notMem_of_calls (calls : RunEvent.calls events = []) :
    .build image context ∉ events := by
  intro asked
  have called : .build image context ∈ RunEvent.calls events := List.mem_filter.2 ⟨asked, rfl⟩
  rw [calls] at called
  exact List.not_mem_nil called

theorem build_notMem_proceed {α : Type} {stage : Stage} {more : List RunEvent}
    {result : Except StageError α} {next : α → Phase} (calls : RunEvent.calls more = []) :
    .build image context ∉ (proceed job stage disk more result next).events := by
  cases result with
  | ok value => exact build_notMem_of_calls calls
  | error source =>
      refine build_notMem_of_calls ?_
      rw [proceed, leave, calls_append, calls]
      rfl

/-- The answer to a run asks for no build. -/
theorem build_notMem_takeRun (verbose : Bool) (answer : ContainerRun) :
    .build image context ∉ (takeRun verbose answer).events := by
  cases ending : answer.outcome with
  | error error => simp [takeRun, ending]
  | ok exit => simp [takeRun, ending]

/-- A build is asked for in its own phase only, with what the staging directory packs to. -/
theorem contextOf_of_build_mem_act
    (asked : .build image context ∈ (act pipeline job disk phase).events) :
    ∃ image, phase = .building image ∧
      contextOf disk (pipeline.stagingDirectory job.request) = .ok context := by
  cases phase with
  | building image' =>
      refine ⟨image', rfl, ?_⟩
      rw [act] at asked
      split at asked
      next => simp [leave] at asked
      next packed =>
          simp only [List.mem_cons, reduceCtorEq, RunEvent.build.injEq, List.not_mem_nil, or_false,
            false_or] at asked
          exact asked.2 ▸ packed
  | working stage rest after =>
      cases rest with
      | operate effect next => exact absurd asked List.not_mem_nil
      | done result => exact absurd asked (build_notMem_proceed rfl)
  | pulled image' answer => exact absurd asked (build_notMem_proceed (calls_takeStream ..))
  | built image' answer => exact absurd asked (build_notMem_proceed (calls_takeStream ..))
  | admitted =>
      rw [act] at asked
      split at asked <;> simp at asked
  | ran answer =>
      rw [act, leave, List.mem_append] at asked
      rcases asked with echoed | last
      · exact absurd echoed (build_notMem_takeRun _ _)
      · simp at last
  | _ => simp [act] at asked

/-- A run that has the disk to itself has prepared its staging directory up to the phase that it is
in. -/
theorem Solo.prepares (solo : Solo pipeline job initial events phase left) :
    Prepares pipeline job initial left phase := by
  induction solo with
  | start => rfl
  | act prior same ih => exact same ▸ prepares_act ih

/-- Whatever a run that has the disk to itself asks to be built is packed from what it has prepared. -/
theorem Solo.prepared_of_build (solo : Solo pipeline job initial events phase left)
    (asked : .build image context ∈ events) :
    ∃ staged, Prepared pipeline job initial staged ∧
      contextOf staged (pipeline.stagingDirectory job.request) = .ok context := by
  induction solo with
  | start => exact absurd asked List.not_mem_nil
  | act prior same ih =>
      obtain rfl := same
      rcases List.mem_append.1 asked with earlier | now
      · exact ih earlier
      · obtain ⟨_, rfl, packed⟩ := contextOf_of_build_mem_act now
        exact ⟨_, Solo.prepares prior, packed⟩

/-- What a run has prepared packs to what is asked for. -/
theorem Prepared.holds (prepared : Prepared pipeline job initial left)
    (apart : Apart initial job.request.sourcePath (pipeline.stagingDirectory job.request))
    (plain : PlainDefinition initial job.request.sourcePath)
    (packed : contextOf left (pipeline.stagingDirectory job.request) = .ok context) :
    ∃ project text, initial.find .through job.request.sourcePath = .ok (project, .directory) ∧
      substituteVersion? job.request.dockerfileTemplate job.request.version = some text ∧
      context.Holds pipeline.filter initial project text := by
  obtain ⟨copied, copy, template⟩ := prepared
  obtain ⟨count, _, copies, same⟩ := run_bind_eq_ok copy
  obtain ⟨path, _, writes, same'⟩ := run_bind_eq_ok template
  obtain ⟨-, rfl⟩ := Prod.mk.inj same
  obtain ⟨-, rfl⟩ := Prod.mk.inj same'
  exact exists_holds_context apart plain copies writes packed

/-- Whenever a run asks for a build, the build context holds exactly what the filter includes of the
project, each entry once and as the archive keeps it, and at its top the image definition: the template
with its leftmost placeholder replaced by the version. -/
theorem run_build_holds (pipeline : Pipeline) (job : Job) (disk : Disk)
    (apart : Apart disk job.request.sourcePath (pipeline.stagingDirectory job.request))
    (plain : PlainDefinition disk job.request.sourcePath) {image : String} {context : BuildContext}
    (asked : .build image context ∈ (job.run pipeline disk).1) :
    ∃ project before after, disk.find .through job.request.sourcePath = .ok (project, .directory) ∧
      job.request.dockerfileTemplate = before ++ placeholder ++ after ∧
      (∀ earlier later, job.request.dockerfileTemplate = earlier ++ placeholder ++ later →
        before.length ≤ earlier.length) ∧
      context.Holds pipeline.filter disk project (before ++ job.request.version ++ after) := by
  obtain ⟨events, outcome, final, settled, solo⟩ := exists_run_eq pipeline job disk
  rw [settled] at asked
  obtain ⟨staged, prepared, packed⟩ := Solo.prepared_of_build solo asked
  obtain ⟨project, text, found, substituted, holds⟩ := prepared.holds apart plain packed
  obtain ⟨before, after, same, rfl, leftmost⟩ := Text.eq_of_replaceFirst?_eq_some substituted
  exact ⟨project, before, after, found, same, leftmost, holds⟩

/-- An engine that does everything it is asked for, and has nothing to say. -/
def silentEngine : Engine where
  pull _ := { answer := .ok [] }
  build _ _ := { answer := .ok [] }
  run _ _ := { answer := { outcome := .ok { exitCode := 0, container := "c" } } }
  remove _ := .ok ()

def sampleJob (source : String) : Job where
  request :=
    { version := "1", projectName := "p", sourcePath := source, imageNameTemplate := "i:$VERSION"
      dockerfileTemplate := "FROM b:$VERSION", baseImage := "b", testCommand := ["t"] }
  engine := silentEngine

def samplePipeline : Pipeline := { stagingRoot := "/s" }

/-- A project with a link in it, and what an earlier run has left in its staging directory. -/
def sampleDisk : Disk where
  tree :=
    { entries :=
        [(["proj"], .directory), (["proj", "l"], .link "a//b"), (["proj", ".git"], .directory),
          (["s"], .directory), (["s", "autochecker_p1"], .directory),
          (["s", "autochecker_p1", "old"], .file [] false)] }

theorem apart_sample : Apart sampleDisk (sampleJob "/proj").request.sourcePath
    (samplePipeline.stagingDirectory (sampleJob "/proj").request) :=
  @Apart.of_eq sampleDisk _ _ ["s", "autochecker_p1"] ["proj"] (by decide +kernel)
    (by decide +kernel) (by decide) (by decide +kernel)

theorem plain_sample : PlainDefinition sampleDisk (sampleJob "/proj").request.sourcePath :=
  @PlainDefinition.of_eq sampleDisk _ ["proj"] (by decide +kernel) (by decide +kernel)

/-- What was left in the staging directory and what the filter excludes is not built, and the link is. -/
theorem run_build_holds_over_leftovers :
    Apart sampleDisk (sampleJob "/proj").request.sourcePath
        (samplePipeline.stagingDirectory (sampleJob "/proj").request) ∧
      PlainDefinition sampleDisk (sampleJob "/proj").request.sourcePath ∧
      .build "i:1" [("Dockerfile", .file (Text.utf8 "FROM b:1") false), ("l", .link "a/b")] ∈
        ((sampleJob "/proj").run samplePipeline sampleDisk).1 ∧
      ∃ project before after,
        sampleDisk.find .through "/proj" = .ok (project, .directory) ∧
          "FROM b:$VERSION" = before ++ placeholder ++ after ∧
          (∀ earlier later, "FROM b:$VERSION" = earlier ++ placeholder ++ later →
            before.length ≤ earlier.length) ∧
          BuildContext.Holds samplePipeline.filter sampleDisk project (before ++ "1" ++ after)
            [("Dockerfile", .file (Text.utf8 "FROM b:1") false), ("l", .link "a/b")] :=
  ⟨apart_sample, plain_sample, by decide +kernel,
    run_build_holds samplePipeline (sampleJob "/proj") sampleDisk apart_sample plain_sample
      (by decide +kernel : RunEvent.build "i:1" _ ∈ _)⟩

/-- Two projects of one name. A link in place of the staging directory leads next to the first one,
and the staging directory itself is next to the second. -/
def linkedDisk : Disk where
  tree :=
    { entries :=
        [(["q"], .directory), (["q", "r"], .directory), (["q", "proj"], .directory),
          (["q", "proj", "a"], .file [] false), (["s"], .directory),
          (["s", "autochecker_p1"], .link "../q/r"), (["s", "proj"], .directory)] }

/-- The path of a project that leads through its own staging directory. -/
def throughStaging : String := "/s/autochecker_p1/../proj"

/-- The archive has its own spelling of the targets of links. And a project whose path leads through its
staging directory is another one by the time it is copied. -/
theorem exists_run_build_altered :
    (∃ image context,
      .build image context ∈ ((sampleJob "/proj").run samplePipeline sampleDisk).1 ∧
        sampleDisk.find .through "/proj" = .ok (["proj"], .directory) ∧
        sampleDisk.place? "/s/autochecker_p1" = some ["s", "autochecker_p1"] ∧
        sampleDisk.tree.get? ["proj", "Dockerfile"] = none ∧
        samplePipeline.filter.includes "l" = true ∧
        sampleDisk.tree.get? ["proj", "l"] = some (.link "a//b") ∧
        ("l", .link "a//b") ∉ context) ∧
    ∃ image context,
      .build image context ∈ ((sampleJob throughStaging).run samplePipeline linkedDisk).1 ∧
        linkedDisk.find .through throughStaging = .ok (["q", "proj"], .directory) ∧
        linkedDisk.place? "/s/autochecker_p1" = some ["s", "autochecker_p1"] ∧
        linkedDisk.tree.get? ["q", "proj", "Dockerfile"] = none ∧
        samplePipeline.filter.includes "a" = true ∧
        linkedDisk.tree.get? ["q", "proj", "a"] = some (.file [] false) ∧
        ("a", .file [] false) ∉ context := by
  refine ⟨⟨"i:1", [("Dockerfile", .file (Text.utf8 "FROM b:1") false), ("l", .link "a/b")], ?_⟩,
    "i:1", [("Dockerfile", .file (Text.utf8 "FROM b:1") false)], ?_⟩
  · decide +kernel
  · decide +kernel

end VersionMatrix.Job
