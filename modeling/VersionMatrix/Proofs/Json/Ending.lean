import VersionMatrix.Proofs.Json.RoundTrip

/-! What follows an array or object in a text. It is white space, or the whole is no JSON text. -/
namespace VersionMatrix.Json

variable {c : Char} {chars : List Char} {mode next : Mode} {token : Token} {tokens last : List Token}
  {json : Json}

/-- With more after it, a text is scanned as before up to where its end would have completed a token. -/
theorem exists_scanFrom_append (scanned : scanFrom mode chars = .ok tokens) :
    ∃ before next last, scanEnd next = .ok last ∧ tokens = before ++ last ∧
      ∀ rest, scanFrom mode (chars ++ rest) = (scanFrom next rest).map (before ++ ·) := by
  induction chars generalizing mode tokens with
  | nil =>
      refine ⟨[], mode, tokens, scanned, rfl, fun rest => ?_⟩
      rw [List.nil_append]
      cases scanFrom mode rest <;> rfl
  | cons c chars ih =>
      cases step : scanChar mode c with
      | error fault =>
          rw [scanFrom, step] at scanned
          cases scanned
      | ok parts =>
          obtain ⟨first, next⟩ := parts
          rw [scanFrom_cons first next step] at scanned
          cases more : scanFrom next chars with
          | error fault =>
              rw [more] at scanned
              cases scanned
          | ok after =>
              rw [more] at scanned
              obtain rfl := Except.ok.inj scanned
              obtain ⟨before, arrived, last, ends, rfl, goesOn⟩ := ih more
              refine ⟨first ++ before, arrived, last, ends, (List.append_assoc ..).symm, fun rest => ?_⟩
              rw [List.cons_append, scanFrom_cons first next step, goesOn]
              cases scanFrom arrived rest with
              | error fault => rfl
              | ok more => exact congrArg Except.ok (List.append_assoc ..).symm

/-- The end of a text completes nothing, or a word or number. -/
theorem scanEnd_cases (ends : scanEnd mode = .ok last) :
    mode = .between ∧ last = [] ∨ ∃ token, last = [token] ∧ token.isOpen = true := by
  cases mode with
  | between => exact .inl ⟨rfl, (Except.ok.inj ends).symm⟩
  | word letters =>
      rw [scanEnd] at ends
      split at ends
      next token known =>
          have all : ∀ row ∈ literals, row.2.isOpen = true := by decide
          refine .inr ⟨token, (Except.ok.inj ends).symm, ?_⟩
          obtain ⟨before, after, split, -⟩ := List.lookup_eq_some_iff.1 known
          exact all _ (split ▸ List.mem_append_right _ List.mem_cons_self)
      next => split at ends <;> cases ends
  | number digits =>
      rw [scanEnd] at ends
      split at ends
      next => exact .inr ⟨_, (Except.ok.inj ends).symm, rfl⟩
      next => split at ends <;> cases ends
  | string s => cases ends
  | escape s => cases ends
  | unit s digits => cases ends

theorem isGap_of_startToken (step : startToken c = .ok ([], .between)) : isGap c = true := by
  rw [startToken] at step
  split_ifs at step with gap
  · exact gap
  · cases step
  · cases step
  · cases step
  · split at step <;> cases step

/-- Of the characters only white space between tokens leaves no trace. -/
theorem between_of_scanChar (step : scanChar mode c = .ok ([], .between)) :
    mode = .between ∧ isGap c = true := by
  have ended (read : Except Fault Token) :
      (read >>= fun token => startToken c >>= fun parts => pure (token :: parts.1, parts.2)) ≠
        .ok ([], .between) := by
    cases read with
    | error fault => nofun
    | ok token => cases startToken c <;> nofun
  cases mode with
  | between => exact ⟨rfl, isGap_of_startToken step⟩
  | word letters =>
      rw [scanChar] at step
      split at step
      · cases step
      · exact absurd step (ended _)
  | number digits =>
      rw [scanChar] at step
      split at step
      · cases step
      · exact absurd step (ended _)
  | string s =>
      rw [scanChar] at step
      split_ifs at step <;> cases step
  | escape s =>
      rw [scanChar] at step
      split at step
      · cases step
      · split at step <;> cases step
  | unit s digits =>
      rw [scanChar] at step
      split at step
      · cases step
      · split at step <;> cases step

theorem isGap_of_scanFrom (scanned : scanFrom mode chars = .ok []) :
    mode = .between ∧ ∀ c ∈ chars, isGap c = true := by
  induction chars generalizing mode with
  | nil =>
      obtain ⟨same, -⟩ | ⟨token, whole, -⟩ := scanEnd_cases scanned
      · exact ⟨same, nofun⟩
      · cases whole
  | cons c chars ih =>
      cases step : scanChar mode c with
      | error fault =>
          rw [scanFrom, step] at scanned
          cases scanned
      | ok parts =>
          obtain ⟨first, next⟩ := parts
          rw [scanFrom_cons first next step] at scanned
          cases more : scanFrom next chars with
          | error fault =>
              rw [more] at scanned
              cases scanned
          | ok after =>
              rw [more] at scanned
              obtain ⟨rfl, rfl⟩ := List.append_eq_nil_iff.1 (Except.ok.inj scanned)
              obtain ⟨rfl, gaps⟩ := ih more
              obtain ⟨same, gap⟩ := between_of_scanChar step
              exact ⟨same, List.forall_mem_cons.2 ⟨gap, gaps⟩⟩

namespace ReaderState

variable {state : ReaderState}

/-- A run that has come to a value goes on from there with further tokens. -/
theorem exists_run_append (ran : state.run tokens = .ok json) :
    ∃ done : ReaderState, done.expected = .nothing json ∧
      ∀ more, state.run (tokens ++ more) = done.run more := by
  induction tokens generalizing state with
  | nil =>
      rw [run] at ran
      split at ran
      next result finished => exact ⟨state, Except.ok.inj ran ▸ finished, fun _ => rfl⟩
      next => cases ran
  | cons token tokens ih =>
      rw [run] at ran
      split at ran
      next next taken =>
          obtain ⟨done, finished, goesOn⟩ := ih ran
          refine ⟨done, finished, fun more => ?_⟩
          rw [List.cons_append, run_cons taken, goesOn]
      next => cases ran

/-- After a whole value no token is taken. -/
theorem run_done (finished : state.expected = .nothing json) (token : Token) (more : List Token) :
    state.run (token :: more) = .error .malformed := by
  rw [run, take.eq_def, finished]

theorem eq_of_place {value : Json} {stack : List Frame} {next : ReaderState}
    (placed : place value stack = some next) (finished : next.expected = .nothing json) : json = value := by
  rw [place.eq_def] at placed
  split at placed
  · obtain rfl := Option.some.inj placed
    exact (Expected.nothing.inj finished).symm
  · obtain rfl := Option.some.inj placed
    cases finished
  · obtain rfl := Option.some.inj placed
    cases finished
  · cases placed

end ReaderState

def isContainer : Json → Bool
  | .array _ | .object _ => true
  | _ => false

namespace ReaderState

variable {state next : ReaderState}

/-- A token that may go on is a value of its own. -/
theorem exists_takeValue_eq (stack : List Frame) (isOpen : token.isOpen = true) :
    ∃ value : Json, value.isContainer = false ∧ takeValue stack token = place value stack := by
  cases token with
  | null => exact ⟨.null, rfl, rfl⟩
  | bool value => exact ⟨.bool value, rfl, rfl⟩
  | number spelling => exact ⟨.number spelling, rfl, rfl⟩
  | _ => cases isOpen

/-- A token that may go on closes nothing. -/
theorem closeFrame_eq_none (stack : List Frame) (isOpen : token.isOpen = true) :
    closeFrame stack token = none := by
  rw [closeFrame.eq_def]
  split
  · cases isOpen
  · cases isOpen
  · rfl

/-- A value that ends with a word or number is no more than that. -/
theorem isContainer_of_take (isOpen : token.isOpen = true) (taken : state.take token = some next)
    (finished : next.expected = .nothing json) : json.isContainer = false := by
  obtain ⟨value, plain, same⟩ := exists_takeValue_eq state.stack isOpen
  have placed : place value state.stack = some next := by
    rw [take.eq_def] at taken
    split at taken
    · rwa [← same]
    · cases isOpen
    · rwa [← same]
    · cases isOpen
    · cases isOpen
    · cases isOpen
    · cases isOpen
    · cases isOpen
    · rw [closeFrame_eq_none _ isOpen] at taken
      cases taken
    · cases taken
  rw [eq_of_place placed finished]
  exact plain

/-- An array or object ends with its bracket. -/
theorem isContainer_of_run (isOpen : token.isOpen = true) (ran : state.run (tokens ++ [token]) = .ok json) :
    json.isContainer = false := by
  induction tokens generalizing state with
  | nil =>
      rw [List.nil_append, run] at ran
      split at ran
      next next taken =>
          rw [run] at ran
          split at ran
          next result finished => exact isContainer_of_take isOpen taken (Except.ok.inj ran ▸ finished)
          next => cases ran
      next => cases ran
  | cons first tokens ih =>
      rw [List.cons_append, run] at ran
      split at ran
      next next taken => exact ih ran
      next => cases ran

end ReaderState

theorem read_of_read? {text : String} (found : read? text = some json) : read text = .ok json := by
  rw [read?] at found
  cases result : read text with
  | error fault =>
      rw [result] at found
      cases found
  | ok value =>
      rw [result] at found
      exact congrArg Except.ok (Option.some.inj found)

/-- A text of an array or object with more than white space after it is no JSON text. -/
theorem read?_append {text rest : String} (found : read? text = some json)
    (container : json.isContainer = true) (more : ∃ c ∈ rest.toList, isGap c = false) : read? (text ++ rest) = none := by
  have read := read_of_read? found
  rw [Json.read] at read
  cases scanned : scan text with
  | error fault =>
      rw [scanned] at read
      cases read
  | ok tokens =>
      rw [scanned] at read
      obtain ⟨before, next, last, ends, rfl, goesOn⟩ := exists_scanFrom_append scanned
      obtain ⟨rfl, rfl⟩ | ⟨token, rfl, isOpen⟩ := scanEnd_cases ends
      · rw [List.append_nil] at read
        obtain ⟨done, finished, continues⟩ := ReaderState.exists_run_append read
        rw [read?, Json.read, scan, String.toList_append, goesOn]
        cases after : scanFrom .between rest.toList with
        | error fault => rfl
        | ok tokens =>
            cases tokens with
            | nil =>
                obtain ⟨c, member, other⟩ := more
                rw [(isGap_of_scanFrom after).2 c member] at other
                cases other
            | cons token tokens =>
                change (ReaderState.run {} (before ++ token :: tokens)).toOption = none
                rw [continues, ReaderState.run_done finished]
                rfl
      · rw [ReaderState.isContainer_of_run isOpen read] at container
        cases container

end VersionMatrix.Json
