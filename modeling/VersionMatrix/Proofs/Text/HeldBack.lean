import VersionMatrix.Proofs.Text.Rounds
import VersionMatrix.Proofs.Text.Truncated

/-! What a stream holds back of the bytes it has taken: the start of a character that has not arrived
whole, and nothing else. All bytes before it have been given as text. -/
namespace VersionMatrix.Text.Utf8

variable {bytes part rest : List UInt8}

/-- A fault with a length stays what it is, whatever comes after the bytes. -/
theorem fault?_append {fault : Fault} (found : fault? bytes = some fault)
    (known : fault.length? ≠ none) (more : List UInt8) : fault? (bytes ++ more) = some fault := by
  revert found
  fun_induction fault? bytes generalizing fault with intro found
  | case1 => cases found
  | case2 b₀ rest ascii ih =>
      obtain ⟨inner, there, rfl⟩ := Option.map_eq_some_iff.1 found
      simp [fault?, ascii, @ih inner known there]
  | case5 b₀ b₁ rest two second ih =>
      obtain ⟨inner, there, rfl⟩ := Option.map_eq_some_iff.1 found
      simp [fault?, two, second, @ih inner known there]
  | case8 b₀ b₁ three second b₂ rest third ih =>
      obtain ⟨inner, there, rfl⟩ := Option.map_eq_some_iff.1 found
      simp [fault?, three, second, third, @ih inner known there]
  | case13 b₀ b₁ four second b₂ third b₃ rest fourth ih =>
      obtain ⟨inner, there, rfl⟩ := Option.map_eq_some_iff.1 found
      simp [fault?, four, second, third, fourth, @ih inner known there]
  | case4 | case7 | case11 | case12 =>
      cases found
      cases known rfl
  | case3 | case6 | case9 | case10 | case14 | case15 | case16 =>
      rw [List.cons_append, fault?.eq_def]
      simp [*]

/-- More bytes do not mend an ill-formed part. -/
theorem Broken.append (broken : Broken part rest) (more : List UInt8) :
    Broken part (rest ++ more) where
  filled := broken.filled
  decode further := by rw [List.append_assoc, broken.decode]
  fault := by
    obtain ⟨fault, found, start, length⟩ := broken.fault
    have known : fault.length? ≠ none := by simp [length]
    refine ⟨fault, ?_, start, length⟩
    rw [← List.append_assoc]
    exact fault?_append found known more

/-- Reading on after some bytes is reading what is left of them together with the next ones. -/
theorem drain_append (bytes more : List UInt8) :
    drain (bytes ++ more) =
      ((drain bytes).1 ++ (drain ((drain bytes).2 ++ more)).1,
        (drain ((drain bytes).2 ++ more)).2) := by
  induction bytes using part_induction with
  | nothing => simp
  | character part c rest encodes ih =>
      rw [List.append_assoc, drain_of_encodes encodes, drain_of_encodes encodes, ih]
      rfl
  | broken part rest broken ih =>
      rw [List.append_assoc, drain_of_broken (broken.append more), drain_of_broken broken, ih]
      rfl
  | unfinished bytes unfinished => rw [drain_of_unfinished unfinished, List.nil_append]

/-- What is left of bytes is their end, and it is nothing or ends in the middle of a character. -/
theorem drain_rest (bytes : List UInt8) :
    (drain bytes).2 <:+ bytes ∧ ((drain bytes).2 = [] ∨ Unfinished (drain bytes).2) := by
  induction bytes using part_induction with
  | nothing => simp
  | character part c rest encodes ih =>
      rw [drain_of_encodes encodes]
      exact ⟨ih.1.trans (List.suffix_append part rest), ih.2⟩
  | broken part rest broken ih =>
      rw [drain_of_broken broken]
      exact ⟨ih.1.trans (List.suffix_append part rest), ih.2⟩
  | unfinished bytes unfinished =>
      rw [drain_of_unfinished unfinished]
      exact ⟨List.suffix_refl bytes, .inr unfinished⟩

/-- What is held back is nothing or the start of a character. -/
theorem drain_held (bytes : List UInt8) : (drain bytes).2 = [] ∨ Truncated (drain bytes).2 :=
  (drain_rest bytes).2.imp_right fun unfinished => unfinished.opening.truncated

/-- Of what is left nothing can be read yet. -/
theorem drain_drain (bytes : List UInt8) : drain (drain bytes).2 = ([], (drain bytes).2) := by
  rcases (drain_rest bytes).2 with empty | unfinished
  · rw [empty, drain_nil]
  · exact drain_of_unfinished unfinished

/-- The whole is decoded as what is drained and then what is held back. -/
theorem decodeLossy_eq_drain (bytes : List UInt8) :
    decodeLossy bytes = (drain bytes).1 ++ decodeLossy (drain bytes).2 := by
  simpa using decodeLossy_append bytes []

/-- Before a byte that continues nothing, bytes are read as they are alone. -/
theorem drain_append_of_fresh {next : UInt8} (fresh : isContinuation next = false)
    (bytes rest : List UInt8) :
    drain (bytes ++ next :: rest) =
      (decodeLossy bytes ++ (drain (next :: rest)).1, (drain (next :: rest)).2) := by
  rw [drain_append, decodeLossy_eq_drain]
  rcases (drain_rest bytes).2 with empty | unfinished
  · simp [empty, decodeLossy]
  · have opening := unfinished.opening
    rw [drain_of_broken (opening.broken fresh rest), opening.replaced, List.append_assoc]
    rfl

/-- All but what is left has been read. -/
theorem exists_taken (bytes : List UInt8) :
    ∃ taken, bytes = taken ++ (drain bytes).2 ∧ (drain bytes).1 = decodeLossy taken := by
  obtain ⟨taken, whole⟩ := (drain_rest bytes).1
  refine ⟨taken, whole.symm, ?_⟩
  rcases drain_held bytes with empty | truncated
  · rw [empty, List.append_nil] at whole
    rw [whole, decodeLossy_eq_drain, empty]
    exact (List.append_nil _).symm
  · obtain ⟨first, rest, same, fresh⟩ := truncated.exists_eq_cons
    have read := drain_append_of_fresh fresh taken rest
    rw [← same, whole, drain_drain, List.append_nil] at read
    rw [read]

/-- What is left is the start of a character at the end of the bytes, if there is one there. -/
theorem suffix_iff_eq_drain (truncated : Truncated part) (bytes : List UInt8) :
    part <:+ bytes ↔ part = (drain bytes).2 := by
  constructor
  · rintro ⟨before, rfl⟩
    obtain ⟨first, rest, rfl, fresh⟩ := truncated.exists_eq_cons
    rw [drain_append_of_fresh fresh, drain_of_unfinished truncated.unfinished]
  · rintro rfl
    exact (drain_rest bytes).1

/-- A character that has arrived whole has been read, and nothing is left then. -/
theorem drain_concat (before : List UInt8) (c : Char) :
    drain (before ++ String.utf8EncodeChar c) = (decodeLossy before ++ [c], []) := by
  have encodes := encodes_utf8EncodeChar c
  have alone := drain_of_encodes encodes []
  obtain ⟨first, rest, same⟩ := List.exists_cons_of_ne_nil encodes.filled
  rw [List.append_nil, drain_nil, same] at alone
  rw [same] at encodes ⊢
  rw [drain_append_of_fresh encodes.fresh, alone]

namespace Stream

/-- Frames that are pushed one by one are drained like all of them at once. -/
theorem drain_pushAll (stream : Stream) (settled : drain stream.pending = ([], stream.pending))
    (frames : List (List UInt8)) :
    drain (stream.pending ++ frames.flatten) =
      ((stream.pushAll frames).2.flatten, (stream.pushAll frames).1.pending) := by
  induction frames generalizing stream with
  | nil => simpa [pushAll] using settled
  | cons frame frames ih =>
      have later := ih (stream.push frame).1 (drain_drain (stream.pending ++ frame))
      simp only [push] at later
      rw [List.flatten_cons, ← List.append_assoc, drain_append, later]
      rfl

/-- Frame after frame, what is given and what is held back are those of all bytes so far. -/
theorem drain_flatten (frames : List (List UInt8)) :
    drain frames.flatten = ((pushAll {} frames).2.flatten, (pushAll {} frames).1.pending) :=
  drain_pushAll {} drain_nil frames

/-- How a stream stands after any frames. The loop of the next push ends, after no more rounds than
there are bytes and one, and every round that goes on takes at least one byte. What is held back is
nothing or the start of a character, three bytes at most; it is the start of a character at the end of
what was received, if there is one there. What has been given is the text of all bytes before it, so
that a character has been given as soon as its last byte was received. At the end there is at most one
replacement to be given for what is held back. -/
theorem pushAll_holds_back (frames : List (List UInt8)) :
    let stream := (pushAll {} frames).1
    let given := (pushAll {} frames).2.flatten
    let received := frames.flatten
    (∀ frame, ∃ rounds, rounds ≤ (stream.pending ++ frame).length + 1 ∧
      Reading.RunsFor { rest := stream.pending ++ frame } rounds
        { text := (stream.push frame).2, rest := (stream.push frame).1.pending }) ∧
    (∀ reading next : Reading, reading.round? = some (.goesOn next) →
      ∃ part, part ≠ [] ∧ reading.rest = part ++ next.rest) ∧
    (stream.pending = [] ∨ Truncated stream.pending) ∧
    stream.pending.length ≤ 3 ∧
    (∀ part, Truncated part → (part <:+ received ↔ part = stream.pending)) ∧
    (∃ taken, received = taken ++ stream.pending ∧ given = decodeLossy taken) ∧
    (∀ before c, received = before ++ String.utf8EncodeChar c →
      stream.pending = [] ∧ given = decodeLossy before ++ [c]) ∧
    stream.finish = if stream.pending = [] then [] else [replacement] := by
  intro stream given received
  have drained : drain received = (given, stream.pending) := drain_flatten frames
  have held : stream.pending = [] ∨ Truncated stream.pending := by
    simpa only [drained] using drain_held received
  refine ⟨fun frame => ?_, fun reading next gone => Reading.consumes_of_goesOn gone, held, ?_,
    fun part truncated => ?_, ?_, fun before c ended => ?_, ?_⟩
  · exact Reading.runsFor_drain { rest := stream.pending ++ frame }
  · rcases held with empty | truncated
    · simp [empty]
    · exact truncated.length_le
  · rw [suffix_iff_eq_drain truncated, drained]
  · obtain ⟨taken, whole, read⟩ := exists_taken received
    rw [drained] at whole read
    exact ⟨taken, whole, read⟩
  · rw [ended, drain_concat] at drained
    exact ⟨(congrArg Prod.snd drained).symm, (congrArg Prod.fst drained).symm⟩
  · rcases held with empty | truncated
    · simp [finish, empty, decodeLossy]
    · rw [if_neg truncated.filled]
      exact truncated.unfinished.opening.replaced

example : (pushAll {} [[0x61, 0xF0, 0x9F], [0x98]]).1.pending = [0xF0, 0x9F, 0x98] := by cbv

end Stream

end VersionMatrix.Text.Utf8
