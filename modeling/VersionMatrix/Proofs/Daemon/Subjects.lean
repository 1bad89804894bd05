import VersionMatrix.Proofs.Daemon.Lifecycle

/-! What the errors of a container engine name, over every daemon. Each operation has a subject, and its
errors name it, with one exception: where the wait for the end of a container breaks, the error names the
container in the place of the image that it was made from. -/
namespace VersionMatrix

inductive EngineOperation where
  | pull (reference : String)
  | build (context : BuildContext) (tag : String)
  | run (image : String) (command : List String)
  | remove (container : String)

/-- The errors that an operation returns: that of its rejection, those in its stream, or the one that it
ends with. -/
def Engine.Returns (engine : Engine) : EngineOperation → EngineError → Prop
  | .pull reference, error =>
    (engine.pull reference).answer = .error error ∨
      ∃ stream, (engine.pull reference).answer = .ok stream ∧ .error error ∈ stream
  | .build context tag, error =>
    (engine.build context tag).answer = .error error ∨
      ∃ stream, (engine.build context tag).answer = .ok stream ∧ .error error ∈ stream
  | .run image command, error => (engine.run image command).answer.outcome = .error error
  | .remove container, error => engine.remove container = .error error

namespace Daemon

variable {daemon : Daemon} {image container : String} {command : List String} {error : EngineError}
  {operation : EngineOperation}

/-- An error is about the subject of its operation: the reference that is pulled, the tag that is built,
the image that is run or the container that was created from it, or the container that is removed. -/
def Names (daemon : Daemon) : EngineOperation → EngineError → Prop
  | .pull reference, error => ∃ text, error = .pull reference text
  | .build _ tag, error => ∃ text, error = .build tag text
  | .run image command, error =>
    (∃ text, error = .run image text) ∨
      ∃ container, daemon.created image command = .ok container ∧ error = .missingStatus container
  | .remove container, error => ∃ text, error = .remove container text

/-- What the daemon says of the end of a container. A request that fails is an item that fails. -/
def statuses (daemon : Daemon) (container : String) : List (Except ClientError Int) :=
  match daemon.send (.wait container) with
  | .ok body => RecordStream.read statusCode? body
  | .error error => [.error error]

/-- A container of this image was created, started and read to the end of its output. -/
structure Ends (daemon : Daemon) (image : String) (command : List String) (container : String) :
    Prop where
  made : daemon.created image command = .ok container
  started : ∃ body, daemon.send (.start container) = .ok body
  read : (daemon.output container).2 = .ok ()

/-- The ways in which the running of a command fails, each with its error. -/
inductive RunFails (daemon : Daemon) (image : String) (command : List String) : EngineError → Prop
  | creation {fault : ClientError} (refused : daemon.created image command = .error fault) :
      RunFails daemon image command (.run image ("Failed to create container: " ++ fault.message))
  | start {container : String} {fault : ClientError}
      (made : daemon.created image command = .ok container)
      (refused : daemon.send (.start container) = .error fault) :
      RunFails daemon image command (.run image ("Failed to start container: " ++ fault.message))
  | output {container : String} {fault : ClientError}
      (made : daemon.created image command = .ok container)
      (started : ∃ body, daemon.send (.start container) = .ok body)
      (broken : (daemon.output container).2 = .error fault) :
      RunFails daemon image command (.run image ("Error reading output: " ++ fault.message))
  -- Here the container stands where the others have the image.
  | waiting {container : String} {fault : ClientError} (ends : daemon.Ends image command container)
      (broken : (daemon.statuses container).head? = some (.error fault)) :
      RunFails daemon image command
        (.run container ("Error waiting for container: " ++ fault.message))
  | silence {container : String} (ends : daemon.Ends image command container)
      (silent : daemon.statuses container = []) :
      RunFails daemon image command (.missingStatus container)

/-- What is said first of the end of a container counts. -/
theorem wait_eq (daemon : Daemon) (container : String) :
    daemon.wait container =
      match daemon.statuses container with
      | [] => .error (.missingStatus container)
      | .error fault :: _ =>
        .error (.run container ("Error waiting for container: " ++ fault.message))
      | .ok code :: _ => .ok code := by
  unfold wait statuses
  cases daemon.send (.wait container) <;> rfl

theorem outcome_of_creation {fault : ClientError} (refused : daemon.created image command = .error fault) :
    (daemon.run image command).result.outcome =
      .error (.run image ("Failed to create container: " ++ fault.message)) := by
  rw [run_of_created_error refused]

theorem outcome_of_start {fault : ClientError} (made : daemon.created image command = .ok container)
    (refused : daemon.send (.start container) = .error fault) :
    (daemon.run image command).result.outcome =
      .error (.run image ("Failed to start container: " ++ fault.message)) := by
  rw [run_of_created_ok made, outcome_attend, refused]
  rfl

theorem outcome_of_output {body : DaemonBody} {fault : ClientError}
    (made : daemon.created image command = .ok container)
    (started : daemon.send (.start container) = .ok body)
    (broken : (daemon.output container).2 = .error fault) :
    (daemon.run image command).result.outcome =
      .error (.run image ("Error reading output: " ++ fault.message)) := by
  rw [run_of_created_ok made, outcome_attend, started, broken]
  rfl

/-- A container whose output was read to the end is left to what the daemon says of its end. -/
theorem outcome_of_ends (ends : daemon.Ends image command container) :
    (daemon.run image command).result.outcome =
      (daemon.wait container).map fun exitCode => { exitCode, container } := by
  obtain ⟨body, started⟩ := ends.started
  rw [run_of_created_ok ends.made, outcome_attend, started, ends.read]
  cases daemon.wait container <;> rfl

/-- The container that a run leaves to its caller is the one that was created for it. -/
theorem created_of_outcome {exit : ContainerExit}
    (ended : (daemon.run image command).result.outcome = .ok exit) :
    daemon.created image command = .ok exit.container := by
  cases made : daemon.created image command with
  | error fault =>
      rw [outcome_of_creation made] at ended
      cases ended
  | ok container =>
      rw [run_of_created_ok made] at ended
      rw [container_attend ended]

/-- A run fails at the first of its steps that does. -/
theorem runFails_of_outcome (failed : (daemon.run image command).result.outcome = .error error) :
    RunFails daemon image command error := by
  cases made : daemon.created image command with
  | error fault =>
      rw [outcome_of_creation made] at failed
      obtain rfl := Except.error.inj failed
      exact .creation made
  | ok container =>
  cases started : daemon.send (.start container) with
  | error fault =>
      rw [outcome_of_start made started] at failed
      obtain rfl := Except.error.inj failed
      exact .start made started
  | ok body =>
  cases read : (daemon.output container).2 with
  | error fault =>
      rw [outcome_of_output made started read] at failed
      obtain rfl := Except.error.inj failed
      exact .output made ⟨body, started⟩ read
  | ok _ =>
      have ends : daemon.Ends image command container := ⟨made, ⟨body, started⟩, read⟩
      rw [outcome_of_ends ends, wait_eq] at failed
      cases said : daemon.statuses container with
      | nil =>
          rw [said] at failed
          obtain rfl := Except.error.inj failed
          exact .silence ends said
      | cons status later =>
      rw [said] at failed
      cases status with
      | error fault =>
          obtain rfl := Except.error.inj failed
          exact .waiting ends (by rw [said]; rfl)
      | ok code => cases failed

/-- Each of the ways to fail leads to its error. -/
theorem outcome_of_runFails (fails : RunFails daemon image command error) :
    (daemon.run image command).result.outcome = .error error := by
  cases fails with
  | creation refused => exact outcome_of_creation refused
  | start made refused => exact outcome_of_start made refused
  | output made started broken =>
      obtain ⟨body, started⟩ := started
      exact outcome_of_output made started broken
  | @waiting container fault ends broken =>
      obtain ⟨later, said⟩ := List.head?_eq_some_iff.1 broken
      rw [outcome_of_ends ends, wait_eq, said]
      rfl
  | silence ends silent =>
      rw [outcome_of_ends ends, wait_eq, silent]
      rfl

/-- There are no other ways to fail. -/
theorem outcome_eq_error_iff :
    (daemon.run image command).result.outcome = .error error ↔ RunFails daemon image command error :=
  ⟨runFails_of_outcome, outcome_of_runFails⟩

/-- The wait for the end of the container broke, and the error is about that container, which does not
have the name of the image. -/
def Misnames (daemon : Daemon) : EngineOperation → EngineError → Prop
  | .run image command, error => ∃ container fault, daemon.Ends image command container ∧
      (daemon.statuses container).head? = some (.error fault) ∧ container ≠ image ∧
      error = .run container ("Error waiting for container: " ++ fault.message)
  | _, _ => False

/-- Every error of a pull is about the reference that is pulled. -/
theorem names_of_mem_pull {reference : String} (member : .error error ∈ daemon.pull reference) :
    daemon.Names (.pull reference) error := by
  obtain ⟨item, -, meant⟩ := List.mem_map.1 member
  cases item with
  | ok record => cases meant
  | error fault => exact ⟨fault.message, (Except.error.inj meant).symm⟩

/-- Every error of a build is about the tag that is built. -/
theorem names_of_mem_build {context : BuildContext} {tag : String}
    (member : .error error ∈ daemon.build context tag) :
    daemon.Names (.build context tag) error := by
  obtain ⟨item, -, meant⟩ := List.mem_map.1 member
  cases item with
  | ok record => cases meant
  | error fault =>
      -- What the daemon reports inside a build is no error of the operation.
      cases fault with
      | reported text => cases meant
      | _ => exact ⟨_, (Except.error.inj meant).symm⟩

/-- An error of a removal is about the container that is removed. -/
theorem names_of_remove (failed : daemon.remove container = .error error) :
    daemon.Names (.remove container) error := by
  unfold remove at failed
  split at failed
  next => cases failed
  next fault _ => exact ⟨fault.message, (Except.error.inj failed).symm⟩

/-- An error is not both about its subject and about another one. -/
theorem not_misnames_of_names (names : daemon.Names operation error) :
    ¬ daemon.Misnames operation error := by
  cases operation with
  | run image command =>
      rintro ⟨container, fault, -, -, other, rfl⟩
      rcases names with ⟨text, same⟩ | ⟨_, -, same⟩
      · exact other (EngineError.run.inj same).1
      · cases same
  | _ => exact id

/-- An error of a run is about the image or its container, but for the one way that calls the
container an image. -/
theorem names_or_misnames_of_runFails (fails : RunFails daemon image command error) :
    daemon.Names (.run image command) error ∨ daemon.Misnames (.run image command) error := by
  cases fails with
  | creation | start | output => exact .inl (.inl ⟨_, rfl⟩)
  | @waiting container fault ends broken =>
      by_cases same : container = image
      · exact .inl (.inl ⟨_, by rw [same]⟩)
      · exact .inr ⟨container, fault, ends, broken, same, rfl⟩
  | silence ends => exact .inl (.inr ⟨_, ends.made, rfl⟩)

/-- The same for every operation. -/
theorem names_or_misnames (returned : daemon.engine.Returns operation error) :
    daemon.Names operation error ∨ daemon.Misnames operation error := by
  cases operation with
  | pull reference =>
      rcases returned with rejected | ⟨stream, answered, member⟩
      · cases rejected
      · obtain rfl := Except.ok.inj answered
        exact .inl (names_of_mem_pull member)
  | build context tag =>
      rcases returned with rejected | ⟨stream, answered, member⟩
      · cases rejected
      · obtain rfl := Except.ok.inj answered
        exact .inl (names_of_mem_build member)
  | run image command => exact names_or_misnames_of_runFails (runFails_of_outcome returned)
  | remove container => exact .inl (names_of_remove returned)

/-- Which errors the engine behind a daemon returns, and what they name. Every error names the subject of
its operation, except when the end of a container was waited for and the wait broke: that error is about
the container in place of the image. A run returns exactly the errors of its steps, and for those before
the wait they carry the image that was to be run; a container that ended without a status is named
itself. The container that a run hands over to be removed is the one that was created. -/
theorem returned_error_names (daemon : Daemon) :
    (∀ operation error, daemon.engine.Returns operation error →
      (daemon.Names operation error ↔ ¬ daemon.Misnames operation error)) ∧
    (∀ image command error, daemon.engine.Returns (.run image command) error ↔
      RunFails daemon image command error) ∧
    ∀ image command exit, (daemon.engine.run image command).answer.outcome = .ok exit →
      daemon.created image command = .ok exit.container := by
  refine ⟨fun operation error returned => ⟨not_misnames_of_names, ?_⟩,
    fun _ _ _ => outcome_eq_error_iff, fun _ _ _ => created_of_outcome⟩
  exact (names_or_misnames returned).resolve_right

/-- A daemon that runs containers but refuses to say how they end. -/
def silentDaemon : Daemon :=
  some fun request =>
    match request with
    | .create .. => { status := 201, body := Text.utf8 "\x7b\"Id\":\"ctr-1\",\"Warnings\":[]\x7d" }
    | .wait _ => { status := 500, body := Text.utf8 "\x7b\"message\":\"boom\"\x7d" }
    | .logs _ => { status := 200 }
    | _ => { status := 204 }

/-- The wait breaks, and the error is about a container although an image was to be run. -/
theorem exists_error_misnamed :
    silentDaemon.engine.Returns (.run "p_1:r" ["t"])
        (.run "ctr-1" "Error waiting for container: Docker responded with status code 500: boom") ∧
      ∀ text, EngineError.run "ctr-1"
        "Error waiting for container: Docker responded with status code 500: boom" ≠
          .run "p_1:r" text := by
  constructor
  · change (silentDaemon.run "p_1:r" ["t"]).result.outcome = _
    decide +kernel
  · intro text same
    exact absurd (EngineError.run.inj same).1 (by decide)

end Daemon

end VersionMatrix
