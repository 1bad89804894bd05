import VersionMatrix.Proofs.Text.Utf8

/-! The reading of bytes as the loop that it is, without a measure that would make it end: a round reads
up to the first fault and goes on behind it, if it can. The rounds do end, and add up to `drain`. -/
namespace VersionMatrix.Text.Utf8

variable {bytes : List UInt8} {fault : Fault}

/-- Where the reading stands between two rounds: the text so far, and the bytes that are left. -/
structure Reading where
  text : List Char := []
  rest : List UInt8
deriving DecidableEq, Repr

/-- What a round comes to. -/
inductive Round where
  | goesOn (next : Reading)
  | ends (last : Reading)
deriving DecidableEq, Repr

namespace Reading

/-- One round. There is none if the fault, or the ill-formed part there, lay beyond the bytes. -/
def round? (reading : Reading) : Option Round :=
  match fault? reading.rest with
  | none => some (.ends { text := reading.text ++ decodeLossy reading.rest, rest := [] })
  | some fault =>
    let text := reading.text ++ decodeLossy (reading.rest.take fault.validUpTo)
    let after := reading.rest.drop fault.validUpTo
    if reading.rest.length < fault.validUpTo then none
    else
      match fault.length? with
      | none => some (.ends { text, rest := after })
      | some length =>
        if after.length < length then none
        else some (.goesOn { text := text ++ [replacement], rest := after.drop length })

/-- The loop from where the reading stands to where its last round leaves it, in so many rounds. -/
inductive RunsFor : Reading → Nat → Reading → Prop
  | last {reading last : Reading} (ended : reading.round? = some (.ends last)) :
    RunsFor reading 1 last
  | next {reading next last : Reading} {rounds : Nat}
    (gone : reading.round? = some (.goesOn next)) (run : RunsFor next rounds last) :
    RunsFor reading (rounds + 1) last

example : round? { rest := [0x61, 0xFF, 0x62] } =
    some (.goesOn { text := ['a', replacement], rest := [0x62] }) := by
  decide

end Reading

/-- Neither the well-formed bytes nor the ill-formed part behind them are more than there are. -/
theorem fault?_within (found : fault? bytes = some fault) :
    fault.validUpTo + fault.length?.getD 0 ≤ bytes.length := by
  induction bytes using part_induction generalizing fault with
  | nothing => cases found
  | character part c rest encodes ih =>
      rw [encodes.fault, Option.map_eq_some_iff] at found
      obtain ⟨inner, there, rfl⟩ := found
      have within := ih there
      simp only [Fault.after, List.length_append]
      omega
  | broken part rest broken _ =>
      obtain ⟨own, there, start, length⟩ := broken.fault
      obtain rfl : own = fault := Option.some.inj (there.symm.trans found)
      simp [start, length]
  | unfinished bytes unfinished =>
      obtain ⟨own, there, start, length⟩ := unfinished.fault
      obtain rfl : own = fault := Option.some.inj (there.symm.trans found)
      simp [start, length]

namespace Reading

variable {reading next : Reading}

/-- A round over well-formed bytes is the last. -/
theorem round?_of_sound (sound : fault? reading.rest = none) :
    reading.round? =
      some (.ends { text := reading.text ++ decodeLossy reading.rest, rest := [] }) := by
  simp [round?, sound]

/-- A round ends the loop where the bytes are cut within a character. -/
theorem round?_of_cut (found : fault? reading.rest = some fault) (endless : fault.length? = none) :
    reading.round? = some (.ends
      { text := reading.text ++ decodeLossy (reading.rest.take fault.validUpTo),
        rest := reading.rest.drop fault.validUpTo }) := by
  have within := fault?_within found
  simp only [endless, Option.getD_none] at within
  simp [round?, found, endless, show ¬ reading.rest.length < fault.validUpTo by omega]

/-- A round goes on behind bytes that are wrong. -/
theorem round?_of_length {length : Nat} (found : fault? reading.rest = some fault)
    (known : fault.length? = some length) :
    reading.round? = some (.goesOn
      { text := reading.text ++ decodeLossy (reading.rest.take fault.validUpTo) ++ [replacement],
        rest := (reading.rest.drop fault.validUpTo).drop length }) := by
  have within := fault?_within found
  simp only [known, Option.getD_some] at within
  have inside : ¬ (reading.rest.drop fault.validUpTo).length < length := by
    rw [List.length_drop]
    omega
  simp only [round?, found, known]
  rw [if_neg (by omega), if_neg inside]

/-- A round that goes on has taken at least one byte. -/
theorem consumes_of_goesOn (gone : reading.round? = some (.goesOn next)) :
    ∃ part, part ≠ [] ∧ reading.rest = part ++ next.rest := by
  cases found : fault? reading.rest with
  | none =>
      rw [round?_of_sound found] at gone
      cases gone
  | some fault =>
      cases known : fault.length? with
      | none =>
          rw [round?_of_cut found known] at gone
          cases gone
      | some length =>
          rw [round?_of_length found known] at gone
          cases gone
          refine ⟨reading.rest.take (fault.validUpTo + length), ?_, ?_⟩
          · have positive : length ≠ 0 := by
              rintro rfl
              exact fault.proper known
            have within := fault?_within found
            simp only [known, Option.getD_some] at within
            rw [← List.length_pos_iff, List.length_take]
            omega
          · rw [List.drop_drop, List.take_append_drop]

/-- Each round that goes on leaves fewer bytes. -/
theorem shorter_of_goesOn (gone : reading.round? = some (.goesOn next)) :
    next.rest.length < reading.rest.length := by
  obtain ⟨part, filled, whole⟩ := consumes_of_goesOn gone
  have positive := List.length_pos_iff.2 filled
  rw [whole, List.length_append]
  omega

/-- The rounds come to an end, with the text and the bytes that `drain` gives. -/
theorem runsFor_drain (reading : Reading) :
    ∃ rounds, rounds ≤ reading.rest.length + 1 ∧
      reading.RunsFor rounds
        { text := reading.text ++ (drain reading.rest).1, rest := (drain reading.rest).2 } := by
  -- On the number of bytes left, which every round that goes on lowers.
  induction size : reading.rest.length using Nat.strongRecOn generalizing reading with
  | ind size ih =>
      subst size
      rw [drain_eq]
      cases found : fault? reading.rest with
      | none => exact ⟨1, by omega, .last (round?_of_sound found)⟩
      | some fault =>
          cases known : fault.length? with
          | none =>
              simp only [known]
              exact ⟨1, by omega, .last (round?_of_cut found known)⟩
          | some length =>
              have gone := round?_of_length found known
              have shorter := shorter_of_goesOn gone
              obtain ⟨rounds, few, run⟩ := ih _ shorter _ rfl
              refine ⟨rounds + 1, by omega, .next gone ?_⟩
              simpa [known] using run

end Reading

end VersionMatrix.Text.Utf8
