import VersionMatrix.Daemon.Client
import VersionMatrix.Proofs.Text.Utf8

/-! The output of a container, whose two streams come in frames that alternate in any way. Each
stream is read as if it were alone. -/
namespace VersionMatrix

/-- The streams that a container writes. -/
inductive LogSide where
  | output
  | error
deriving DecidableEq, Repr

def LogChannel.side? : LogChannel → Option LogSide
  | .input => none
  | .output => some .output
  | .plain => some .output
  | .error => some .error

def LogFrame.ofSide (side : LogSide) (frames : List LogFrame) : List (List UInt8) :=
  (frames.filter fun frame => frame.channel.side? = some side).map LogFrame.bytes

namespace LogReader

variable {reader : LogReader} {frame : LogFrame} {side : LogSide}

def stream (reader : LogReader) : LogSide → Text.Utf8.Stream
  | .output => reader.output
  | .error => reader.error

/-- Takes frames one after the other, and gives the chunks of each. -/
def pushAll (reader : LogReader) : List LogFrame → LogReader × List (List String)
  | [] => (reader, [])
  | frame :: frames =>
    let (next, part) := reader.push frame
    let (last, parts) := next.pushAll frames
    (last, part :: parts)

/-- What the frames of one stream gave, out of what each of the frames gave. -/
def chunksOf (side : LogSide) (frames : List LogFrame) (parts : List (List String)) : List String :=
  ((frames.zip parts).filter fun entry => entry.1.channel.side? = some side).flatMap Prod.snd

@[simp] theorem stream_initial (side : LogSide) : stream {} side = {} := by
  cases side <;> rfl

theorem ne_empty_of_mem_chunk {text : List Char} {written : String} (member : written ∈ chunk text) :
    written ≠ "" := by
  unfold chunk at member
  split at member
  next => cases member
  next filled =>
      obtain rfl := List.mem_singleton.1 member
      rintro empty
      simp_all

theorem join_chunk (text : List Char) : String.join (chunk text) = String.ofList text := by
  cases text <;> simp [chunk, String.join]

/-- Chunks put together are the texts that they were made of. -/
theorem join_chunks (texts : List (List Char)) :
    String.join (texts.flatMap chunk) = String.ofList texts.flatten := by
  induction texts with
  | nil => rfl
  | cons text texts ih =>
      rw [List.flatMap_cons, String.join_append, join_chunk, ih, List.flatten_cons,
        String.ofList_append]

/-- A frame goes to the reader of its own stream, and what is complete with it is written at
once. -/
theorem push_of_side (own : frame.channel.side? = some side) :
    (reader.push frame).1.stream side = ((reader.stream side).push frame.bytes).1 ∧
      (reader.push frame).2 = chunk ((reader.stream side).push frame.bytes).2 := by
  obtain ⟨channel, bytes⟩ := frame
  cases channel <;> cases own <;> exact ⟨rfl, rfl⟩

/-- A frame leaves the reader of the other stream alone. -/
theorem stream_push_of_other (other : frame.channel.side? ≠ some side) :
    (reader.push frame).1.stream side = reader.stream side := by
  obtain ⟨channel, bytes⟩ := frame
  cases channel <;> cases side <;> first | rfl | exact absurd rfl other

/-- A frame that belongs to neither stream is dropped. -/
theorem push_of_none (lost : frame.channel.side? = none) : reader.push frame = (reader, []) := by
  obtain ⟨channel, bytes⟩ := frame
  cases channel <;> first | rfl | cases lost

/-- A frame gives at most one chunk. -/
theorem exists_push_eq_chunk (reader : LogReader) (frame : LogFrame) :
    ∃ text, (reader.push frame).2 = chunk text := by
  cases owner : frame.channel.side? with
  | none => exact ⟨[], by rw [push_of_none owner]; rfl⟩
  | some side => exact ⟨_, (push_of_side owner).2⟩

theorem length_pushAll (reader : LogReader) (frames : List LogFrame) :
    (reader.pushAll frames).2.length = frames.length := by
  induction frames generalizing reader with
  | nil => rfl
  | cons frame frames ih => simp only [pushAll, List.length_cons, ih]

theorem exists_part_eq_chunk {part : List String} (frames : List LogFrame)
    (member : part ∈ (reader.pushAll frames).2) : ∃ text, part = chunk text := by
  induction frames generalizing reader with
  | nil => cases member
  | cons frame frames ih =>
      rcases List.mem_cons.1 member with rfl | later
      · exact exists_push_eq_chunk reader frame
      · exact ih later

/-- What was written to the container is no part of its output. -/
theorem part_of_input {entry : LogFrame × List String} (frames : List LogFrame)
    (member : entry ∈ frames.zip (reader.pushAll frames).2) (input : entry.1.channel = .input) :
    entry.2 = [] := by
  induction frames generalizing reader with
  | nil => cases member
  | cons frame frames ih =>
      rcases List.mem_cons.1 member with rfl | later
      · exact congrArg Prod.snd (push_of_none (congrArg LogChannel.side? input))
      · exact ih later

/-- The reader of a stream takes the frames of that stream, and no others. -/
theorem stream_pushAll (reader : LogReader) (side : LogSide) (frames : List LogFrame) :
    (reader.pushAll frames).1.stream side =
      ((reader.stream side).pushAll (LogFrame.ofSide side frames)).1 := by
  induction frames generalizing reader with
  | nil => rfl
  | cons frame frames ih =>
      simp only [pushAll, ih]
      by_cases own : frame.channel.side? = some side
      · simp [LogFrame.ofSide, own, Text.Utf8.Stream.pushAll, push_of_side own]
      · simp [LogFrame.ofSide, own, stream_push_of_other own]

/-- The frames of a stream give the chunks of its texts. -/
theorem chunksOf_pushAll (reader : LogReader) (side : LogSide) (frames : List LogFrame) :
    chunksOf side frames (reader.pushAll frames).2 =
      ((reader.stream side).pushAll (LogFrame.ofSide side frames)).2.flatMap chunk := by
  induction frames generalizing reader with
  | nil => rfl
  | cons frame frames ih =>
      have rest := ih (reader.push frame).1
      simp only [chunksOf] at rest
      by_cases own : frame.channel.side? = some side
      · simp [chunksOf, LogFrame.ofSide, own, pushAll, Text.Utf8.Stream.pushAll, rest,
          push_of_side own]
      · simp [chunksOf, LogFrame.ofSide, own, pushAll, rest, stream_push_of_other own]

theorem chunksOf_of_forall {frames : List LogFrame} {parts : List (List String)}
    (own : ∀ frame ∈ frames, frame.channel.side? = some side) (size : parts.length = frames.length) :
    chunksOf side frames parts = parts.flatten := by
  have all : ∀ entry ∈ frames.zip parts, decide (entry.1.channel.side? = some side) = true :=
    fun entry member => decide_eq_true (own _ (List.of_mem_zip member).1)
  rw [chunksOf, List.filter_eq_self.2 all, List.flatMap_def, List.map_snd_zip (Nat.le_of_eq size)]

/-- What is written for frames before more of the output comes. -/
theorem collect_append (reader : LogReader) (frames : List LogFrame)
    (more : List (Except ClientError LogFrame)) :
    reader.collect (frames.map .ok ++ more) =
      ((reader.pushAll frames).2.flatten ++ ((reader.pushAll frames).1.collect more).1,
        ((reader.pushAll frames).1.collect more).2) := by
  induction frames generalizing reader with
  | nil => rfl
  | cons frame frames ih =>
      simp only [List.map_cons, List.cons_append, collect, ih, pushAll, List.flatten_cons,
        List.append_assoc]

/-- Frames without an error give their chunks, and at the end what was still held back. -/
theorem collect_frames (reader : LogReader) (frames : List LogFrame) :
    reader.collect (frames.map .ok) =
      ((reader.pushAll frames).2.flatten ++ (reader.pushAll frames).1.finish, .ok ()) := by
  have whole := collect_append reader frames []
  rwa [List.append_nil] at whole

/-- The output of a container from the items of its log, and the failure to read it to its end. -/
def streamed (image : String) (items : List (Except ClientError LogFrame)) :
    List String × Except EngineError Unit :=
  let (chunks, ended) := collect {} items
  (chunks, ended.mapError fun error => .run image ("Error reading output: " ++ error.message))

end LogReader

namespace Daemon

/-- The items of a container's log. A request that fails is an item that fails. -/
def logItems (daemon : Daemon) (container : String) : List (Except ClientError LogFrame) :=
  match daemon.send (.logs container) with
  | .ok body => LogStream.read body
  | .error error => [.error error]

variable {daemon : Daemon} {container : String} {body : DaemonBody}

/-- The output of a container is collected from the items of its log. -/
theorem output_eq (daemon : Daemon) (container : String) :
    daemon.output container = LogReader.collect {} (daemon.logItems container) := by
  unfold output logItems
  cases daemon.send (.logs container) <;> rfl

/-- Attending to a container that was started hands on its output, and ends where that breaks off. -/
theorem attend_streamed (image : String) (started : daemon.send (.start container) = .ok body) :
    let result := (daemon.attend image container).result
    let streamed := LogReader.streamed image (daemon.logItems container)
    result.chunks = streamed.1 ∧
      ∀ error, streamed.2 = .error error → result.outcome = .error error := by
  simp only [attend, started, output_eq, LogReader.streamed]
  cases LogReader.collect {} (daemon.logItems container) with
  | mk chunks ended =>
      cases ended with
      | error error => exact ⟨rfl, fun _ same => Except.error.inj same ▸ rfl⟩
      | ok _ => exact ⟨rfl, fun _ impossible => nomatch impossible⟩

end Daemon

namespace LogReader

/-- Output that comes to its end is written in full. -/
theorem streamed_frames (image : String) (frames : List LogFrame) :
    streamed image (frames.map .ok) =
      ((pushAll {} frames).2.flatten ++ (pushAll {} frames).1.finish, .ok ()) := by
  rw [streamed, collect_frames]
  rfl

/-- Output that breaks off is written up to there, without what was held back. -/
theorem streamed_broken (image : String) (frames : List LogFrame) (error : ClientError)
    (more : List (Except ClientError LogFrame)) :
    streamed image (frames.map .ok ++ .error error :: more) =
      ((pushAll {} frames).2.flatten,
        .error (.run image ("Error reading output: " ++ error.message))) := by
  rw [streamed, collect_append, collect, List.append_nil]
  rfl

/-- The chunks of one stream, its flush included, are the same without the other stream. -/
theorem streamed_ofSide (image : String) (side : LogSide) (frames : List LogFrame) :
    (streamed image ((frames.filter fun frame => frame.channel.side? = some side).map .ok)).1 =
      chunksOf side frames (pushAll {} frames).2 ++
        chunk ((pushAll {} frames).1.stream side).finish := by
  generalize alone : (frames.filter fun frame => frame.channel.side? = some side) = own
  have owned : ∀ frame ∈ own, frame.channel.side? = some side := by
    simp [← alone]
  have same : LogFrame.ofSide side own = LogFrame.ofSide side frames := by
    simp [LogFrame.ofSide, ← alone]
  have parts : (pushAll {} own).2.flatten = chunksOf side frames (pushAll {} frames).2 := by
    rw [← chunksOf_of_forall owned (length_pushAll {} own), chunksOf_pushAll, same,
      chunksOf_pushAll]
  have kept : (pushAll {} own).1.stream side = (pushAll {} frames).1.stream side := by
    rw [stream_pushAll, stream_pushAll, same]
  have silent (other : LogSide) (apart : side ≠ other) : (pushAll {} own).1.stream other = {} := by
    have none : LogFrame.ofSide other own = [] := by
      rw [LogFrame.ofSide, List.filter_eq_nil_iff.2 fun frame member => ?_, List.map_nil]
      simp [owned frame member, apart]
    rw [stream_pushAll, none, stream_initial]
    rfl
  have flush : (pushAll {} own).1.finish = chunk ((pushAll {} frames).1.stream side).finish := by
    rw [← kept]
    cases side with
    | output =>
        have empty : (pushAll {} own).1.error = {} := silent .error (by decide)
        rw [finish, empty]
        exact List.append_nil _
    | error =>
        have empty : (pushAll {} own).1.output = {} := silent .output (by decide)
        rw [finish, empty]
        rfl
  rw [streamed_frames, parts, flush]

/-- What a container's output amounts to, however the frames of its two streams alternate. What is
written is not empty, comes frame by frame, and ends with what either stream had held back. Of
each stream it is the text of that stream's bytes, and the same as if the stream were alone.
Frames of the input give nothing. Where reading breaks off, what the frames so far gave has been
written, and the run has failed. -/
theorem output_of_frames (image : String) (frames : List LogFrame) :
    let reader := (pushAll {} frames).1
    let parts := (pushAll {} frames).2
    let flushed (side : LogSide) := chunk (reader.stream side).finish
    let written := parts.flatten ++ (flushed .output ++ flushed .error)
    let failure (error : ClientError) :=
      EngineError.run image ("Error reading output: " ++ error.message)
    streamed image (frames.map .ok) = (written, .ok ()) ∧
    parts.length = frames.length ∧
    (∀ text ∈ written, text ≠ "") ∧
    (∀ side, String.join (chunksOf side frames parts ++ flushed side) =
      Text.Utf8.toTextLossy (LogFrame.ofSide side frames).flatten) ∧
    (∀ side, chunksOf side frames parts ++ flushed side =
      (streamed image ((frames.filter fun frame => frame.channel.side? = some side).map .ok)).1) ∧
    (∀ entry ∈ frames.zip parts, entry.1.channel = .input → entry.2 = []) ∧
    (∀ error more, streamed image (frames.map .ok ++ .error error :: more) =
      (parts.flatten, .error (failure error))) ∧
    ∀ (daemon : Daemon) container body, daemon.send (.start container) = .ok body →
      let result := (daemon.attend image container).result
      (daemon.logItems container = frames.map .ok → result.chunks = written) ∧
      ∀ error more, daemon.logItems container = frames.map .ok ++ .error error :: more →
        result.chunks = parts.flatten ∧ result.outcome = .error (failure error) := by
  intro reader parts flushed written failure
  have whole : streamed image (frames.map .ok) = (written, .ok ()) := streamed_frames image frames
  have broken (error : ClientError) (more : List (Except ClientError LogFrame)) :
      streamed image (frames.map .ok ++ .error error :: more) =
        (parts.flatten, .error (failure error)) := streamed_broken image frames error more
  refine ⟨whole, length_pushAll {} frames, fun text member => ?_, fun side => ?_,
    fun side => (streamed_ofSide image side frames).symm,
    fun entry member input => part_of_input frames member input, broken,
    fun daemon container body started => ⟨fun read => ?_, fun error more read => ?_⟩⟩
  · rcases List.mem_append.1 member with early | late
    · obtain ⟨part, given, within⟩ := List.mem_flatten.1 early
      obtain ⟨_, rfl⟩ := exists_part_eq_chunk frames given
      exact ne_empty_of_mem_chunk within
    · rcases List.mem_append.1 late with first | second
      · exact ne_empty_of_mem_chunk first
      · exact ne_empty_of_mem_chunk second
  · have read := Text.Utf8.Stream.textOf_eq (LogFrame.ofSide side frames)
    simp only [flushed, parts, reader]
    rw [String.join_append, chunksOf_pushAll, stream_pushAll, join_chunks, join_chunk,
      stream_initial, ← String.ofList_append]
    exact read
  · rw [(Daemon.attend_streamed image started).1, read, whole]
  · obtain ⟨chunks, outcome⟩ := Daemon.attend_streamed image started
    rw [read, broken] at chunks outcome
    exact ⟨chunks, outcome _ rfl⟩

example :
    streamed "image" [.ok ⟨.output, [0xC3]⟩, .ok ⟨.error, [0x65, 0xE2]⟩, .ok ⟨.output, [0xA9]⟩] =
      (["e", "é", "\uFFFD"], .ok ()) := by
  cbv

end LogReader

end VersionMatrix
