import VersionMatrix.Json.Reader
import VersionMatrix.Proofs.Json.Scan

/-! What is written of a JSON value is read as the same value, whether it is compact or indented. -/
namespace VersionMatrix.Json

mutual

def tokens : Json → List Token
  | .null => [.null]
  | .bool value => [.bool value]
  | .number spelling => [.number spelling]
  | .string text => [.string text]
  | .array [] => [.openBracket, .closeBracket]
  | .array (item :: rest) => .openBracket :: tokens item ++ itemTokens rest
  | .object [] => [.openBrace, .closeBrace]
  | .object ((key, value) :: rest) =>
    .openBrace :: .string key :: .colon :: tokens value ++ memberTokens rest

def itemTokens : List Json → List Token
  | [] => [.closeBracket]
  | item :: rest => .comma :: tokens item ++ itemTokens rest

def memberTokens : List (Key × Json) → List Token
  | [] => [.closeBrace]
  | (key, value) :: rest => .comma :: .string key :: .colon :: tokens value ++ memberTokens rest

end

/-- The numbers in a value are spelled as numbers. -/
def IsProper (json : Json) : Prop := ∀ token ∈ json.tokens, token.IsProper

namespace ReaderState

variable {stack : List Frame} {next : ReaderState}

theorem run_cons {state : ReaderState} {token : Token} {rest : List Token}
    (taken : state.take token = some next) : state.run (token :: rest) = next.run rest := by
  rw [run, taken]

/-- A value has a first token, which closes no array. -/
theorem exists_tokens_eq (json : Json) :
    ∃ first rest, json.tokens = first :: rest ∧ first ≠ .closeBracket := by
  rw [tokens.eq_def]
  split <;> exact ⟨_, _, rfl, nofun⟩

/-- The first item of an array is read as any value. -/
theorem run_firstItem (json : Json) (more : List Token) :
    run { expected := .firstItem, stack } (json.tokens ++ more) =
      run { expected := .value, stack } (json.tokens ++ more) := by
  obtain ⟨first, rest, whole, other⟩ := exists_tokens_eq json
  have same : take { expected := .firstItem, stack } first = take { expected := .value, stack } first := by
    cases first with
    | closeBracket => exact absurd rfl other
    | _ => rfl
  rw [whole, List.cons_append, run, run, same]

mutual

/-- The tokens of a value are taken for the value. -/
theorem run_tokens : ∀ (json : Json) (stack : List Frame) (more : List Token) (next : ReaderState),
    place json stack = some next →
      run { expected := .value, stack } (json.tokens ++ more) = next.run more
  | .null, _, _, _, placed => run_cons placed
  | .bool _, _, _, _, placed => run_cons placed
  | .number _, _, _, _, placed => run_cons placed
  | .string _, _, _, _, placed => run_cons placed
  | .array [], _, _, _, placed => by
      rw [tokens, List.cons_append, run_cons rfl]
      exact run_cons placed
  | .array (item :: rest), stack, more, next, placed => by
      rw [tokens, List.append_assoc, List.cons_append, run_cons rfl, run_firstItem,
        run_tokens item _ _ _ rfl]
      exact run_itemTokens rest [item] stack more next placed
  | .object [], _, _, _, placed => by
      rw [tokens, List.cons_append, run_cons rfl]
      exact run_cons placed
  | .object ((key, value) :: rest), stack, more, next, placed => by
      rw [tokens, List.append_assoc, List.cons_append, List.cons_append, List.cons_append, run_cons rfl,
        run_cons rfl, run_cons rfl, run_tokens value _ _ _ rfl]
      exact run_memberTokens rest [(key, value)] stack more next placed

/-- A reader amid an array takes its items and leaves it. -/
theorem run_itemTokens : ∀ (items held : List Json) (stack : List Frame) (more : List Token)
    (next : ReaderState), place (.array (held.reverse ++ items)) stack = some next →
      run { expected := .separator, stack := .array held :: stack } (itemTokens items ++ more) =
        next.run more
  | [], held, stack, more, next, placed => by
      rw [List.append_nil] at placed
      exact run_cons placed
  | item :: rest, held, stack, more, next, placed => by
      rw [itemTokens, List.append_assoc, List.cons_append, run_cons rfl, run_tokens item _ _ _ rfl]
      exact run_itemTokens rest (item :: held) stack more next (by simpa using placed)

/-- A reader amid an object takes its members and leaves it. -/
theorem run_memberTokens : ∀ (members held : List (Key × Json)) (stack : List Frame)
    (more : List Token) (next : ReaderState),
    place (.object (held.reverse ++ members)) stack = some next →
      run { expected := .separator, stack := .object held :: stack } (memberTokens members ++ more) =
        next.run more
  | [], held, stack, more, next, placed => by
      rw [List.append_nil] at placed
      exact run_cons placed
  | (key, value) :: rest, held, stack, more, next, placed => by
      rw [memberTokens, List.append_assoc, List.cons_append, List.cons_append, List.cons_append,
        run_cons rfl, run_cons rfl, run_cons rfl, run_tokens value _ _ _ rfl]
      exact run_memberTokens rest ((key, value) :: held) stack more next (by simpa using placed)

end

end ReaderState

/-- A text that spells the tokens of a value is read as the value. -/
theorem read_of_spells {json : Json} {text : String} (spells : Spells json.tokens text.toList) :
    read text = .ok json := by
  have taken := ReaderState.run_tokens json [] [] _ rfl
  rw [List.append_nil] at taken
  rw [read, scan, scanFrom_of_spells spells]
  exact taken

section

variable (newline : Nat → List Char) (space : List Char)

mutual

/-- The text of a value with line breaks and indentation of one's own, and a space after each colon. -/
def layout (level : Nat) : Json → List Char
  | .null => Token.null.spelling
  | .bool value => (Token.bool value).spelling
  | .number spelling => spelling.toList
  | .string text => quote text
  | .array [] => ['[', ']']
  | .array (item :: rest) =>
    '[' :: newline (level + 1) ++ layout (level + 1) item ++ itemLayout level rest
  | .object [] => ['\x7b', '\x7d']
  | .object ((key, value) :: rest) =>
    '\x7b' :: newline (level + 1) ++ quote key ++ ':' :: space ++ layout (level + 1) value ++
      memberLayout level rest

/-- The items after the first, and the closing bracket. -/
def itemLayout (level : Nat) : List Json → List Char
  | [] => newline level ++ [']']
  | item :: rest => ',' :: newline (level + 1) ++ layout (level + 1) item ++ itemLayout level rest

/-- The members after the first, and the closing brace. -/
def memberLayout (level : Nat) : List (Key × Json) → List Char
  | [] => newline level ++ ['\x7d']
  | (key, value) :: rest =>
    ',' :: newline (level + 1) ++ quote key ++ ':' :: space ++ layout (level + 1) value ++
      memberLayout level rest

end

end

mutual

/-- The compact text is the layout without any white space. -/
theorem compact_eq_layout (level : Nat) : ∀ json : Json, compact json = layout (fun _ => []) [] level json
  | .null | .bool true | .bool false | .number _ | .string _ | .array [] | .object [] => by
      simp [compact, layout, Token.spelling]
  | .array (item :: rest) => by
      simp [compact, layout, compact_eq_layout (level + 1) item, compactItems_eq_layout level rest]
  | .object ((key, value) :: rest) => by
      simp [compact, layout, compact_eq_layout (level + 1) value, compactMembers_eq_layout level rest]

theorem compactItems_eq_layout (level : Nat) :
    ∀ items : List Json, compactItems items = itemLayout (fun _ => []) [] level items
  | [] => by simp [compactItems, itemLayout]
  | item :: rest => by
      simp [compactItems, itemLayout, compact_eq_layout (level + 1) item, compactItems_eq_layout level rest]

theorem compactMembers_eq_layout (level : Nat) :
    ∀ members : List (Key × Json), compactMembers members = memberLayout (fun _ => []) [] level members
  | [] => by simp [compactMembers, memberLayout]
  | (key, value) :: rest => by
      simp [compactMembers, memberLayout, compact_eq_layout (level + 1) value,
        compactMembers_eq_layout level rest]

end

mutual

/-- The indented text is the layout with line breaks and a space after each colon. -/
theorem indented_eq_layout (level : Nat) :
    ∀ json : Json, indented level json = layout newline [' '] level json
  | .null | .bool true | .bool false | .number _ | .string _ | .array [] | .object [] => by
      simp [indented, layout, Token.spelling]
  | .array (item :: rest) => by
      simp [indented, layout, indented_eq_layout (level + 1) item, indentedItems_eq_layout level rest]
  | .object ((key, value) :: rest) => by
      simp [indented, layout, indented_eq_layout (level + 1) value, indentedMembers_eq_layout level rest]

theorem indentedItems_eq_layout (level : Nat) :
    ∀ items : List Json, indentedItems level items = itemLayout newline [' '] level items
  | [] => by simp [indentedItems, itemLayout]
  | item :: rest => by
      simp [indentedItems, itemLayout, indented_eq_layout (level + 1) item,
        indentedItems_eq_layout level rest]

theorem indentedMembers_eq_layout (level : Nat) :
    ∀ members : List (Key × Json), indentedMembers level members = memberLayout newline [' '] level members
  | [] => by simp [indentedMembers, memberLayout]
  | (key, value) :: rest => by
      simp [indentedMembers, memberLayout, indented_eq_layout (level + 1) value,
        indentedMembers_eq_layout level rest]

end

section

variable {gap chars : List Char} {ts : List Token} {token : Token} {c : Char}

/-- White space may stand in front of any tokens. -/
theorem Spells.gaps (blank : ∀ c ∈ gap, isGap c = true) (more : Spells ts chars) : Spells ts (gap ++ chars) := by
  induction gap with
  | nil => exact more
  | cons c gap ih =>
      obtain ⟨first, blank⟩ := List.forall_mem_cons.1 blank
      exact .gap first (ih blank)

/-- A mark or a string ends by itself. -/
theorem Spells.closed {spelling : List Char} (spelled : token.Spelled spelling)
    (closed : token.isOpen = false) (more : Spells ts chars) : Spells (token :: ts) (spelling ++ chars) := by
  refine .token spelled (fun isOpen => ?_) more
  rw [closed] at isOpen
  cases isOpen

theorem Spells.mark (spelled : token.Spelled [c]) (closed : token.isOpen = false)
    (more : Spells ts chars) : Spells (token :: ts) (c :: chars) :=
  .closed spelled closed more

theorem Spells.quoted {text : Option String} (more : Spells ts chars) :
    Spells (.string text :: ts) (quote text ++ chars) :=
  .closed (spellsString_quote text) rfl more

theorem goesOn_of_isGap (blank : isGap c = true) : goesOn c = false := by
  simp only [isGap, Bool.or_eq_true, beq_iff_eq] at blank
  rcases blank with ((rfl | rfl) | rfl) | rfl <;> rfl

/-- A word or a number does not go on past white space. -/
theorem stopsAt_gaps (blank : ∀ c ∈ gap, isGap c = true) (stops : Text.StopsAt goesOn chars) :
    Text.StopsAt goesOn (gap ++ chars) := by
  cases gap with
  | nil => exact stops
  | cons c gap => exact Text.stopsAt_cons (goesOn_of_isGap (blank c List.mem_cons_self))

/-- Line breaks and spaces that are nothing but white space. -/
structure AreGaps (newline : Nat → List Char) (space : List Char) : Prop where
  breaks : ∀ level, ∀ c ∈ newline level, isGap c = true
  space : ∀ c ∈ space, isGap c = true

variable {newline : Nat → List Char} {space : List Char} (blank : AreGaps newline space)

include blank

theorem stopsAt_itemLayout (level : Nat) (items : List Json) :
    Text.StopsAt goesOn (itemLayout newline space level items ++ chars) := by
  cases items with
  | nil =>
      rw [itemLayout, List.append_assoc]
      exact stopsAt_gaps (blank.breaks level) (Text.stopsAt_cons rfl)
  | cons item rest =>
      rw [itemLayout]
      exact Text.stopsAt_cons rfl

theorem stopsAt_memberLayout (level : Nat) (members : List (Key × Json)) :
    Text.StopsAt goesOn (memberLayout newline space level members ++ chars) := by
  cases members with
  | nil =>
      rw [memberLayout, List.append_assoc]
      exact stopsAt_gaps (blank.breaks level) (Text.stopsAt_cons rfl)
  | cons member rest =>
      rw [memberLayout]
      exact Text.stopsAt_cons rfl

mutual

/-- A layout of a value is made of its tokens. -/
theorem spells_layout (level : Nat) : ∀ (json : Json) (chars : List Char) (ts : List Token),
    json.IsProper → Text.StopsAt goesOn chars → Spells ts chars →
      Spells (json.tokens ++ ts) (layout newline space level json ++ chars)
  | .null, _, _, _, stops, more => .token rfl (fun _ => stops) more
  | .bool _, _, _, _, stops, more => .token rfl (fun _ => stops) more
  | .number _, _, _, proper, stops, more =>
      .token ⟨isNumber_iff.1 (proper _ List.mem_cons_self), String.ofList_toList⟩ (fun _ => stops) more
  | .string _, _, _, _, _, more => .quoted more
  | .array [], _, _, _, _, more => .mark rfl rfl (.mark rfl rfl more)
  | .array (item :: rest), chars, ts, proper, stops, more => by
      simp only [IsProper, tokens, List.cons_append, List.forall_mem_cons, List.forall_mem_append] at proper
      simp only [tokens, layout, List.cons_append, List.append_assoc]
      exact .mark rfl rfl (.gaps (blank.breaks _) (spells_layout _ item _ _ proper.2.1
        (stopsAt_itemLayout blank level rest) (spells_itemLayout level rest _ _ proper.2.2 more)))
  | .object [], _, _, _, _, more => .mark rfl rfl (.mark rfl rfl more)
  | .object ((key, value) :: rest), chars, ts, proper, stops, more => by
      simp only [IsProper, tokens, List.cons_append, List.forall_mem_cons, List.forall_mem_append] at proper
      simp only [tokens, layout, List.cons_append, List.append_assoc]
      exact .mark rfl rfl (.gaps (blank.breaks _) (.quoted (.mark rfl rfl (.gaps blank.space
        (spells_layout _ value _ _ proper.2.2.2.1 (stopsAt_memberLayout blank level rest)
          (spells_memberLayout level rest _ _ proper.2.2.2.2 more))))))

/-- The layout of the items of an array spells their tokens. -/
theorem spells_itemLayout (level : Nat) : ∀ (items : List Json) (chars : List Char) (ts : List Token),
    (∀ token ∈ itemTokens items, token.IsProper) → Spells ts chars →
      Spells (itemTokens items ++ ts) (itemLayout newline space level items ++ chars)
  | [], _, _, _, more => by
      rw [itemLayout, List.append_assoc]
      exact .gaps (blank.breaks level) (.mark rfl rfl more)
  | item :: rest, chars, ts, proper, more => by
      simp only [itemTokens, List.cons_append, List.forall_mem_cons, List.forall_mem_append] at proper
      simp only [itemTokens, itemLayout, List.cons_append, List.append_assoc]
      exact .mark rfl rfl (.gaps (blank.breaks _) (spells_layout _ item _ _ proper.2.1
        (stopsAt_itemLayout blank level rest) (spells_itemLayout level rest _ _ proper.2.2 more)))

/-- The layout of the members of an object spells their tokens. -/
theorem spells_memberLayout (level : Nat) :
    ∀ (members : List (Key × Json)) (chars : List Char) (ts : List Token),
    (∀ token ∈ memberTokens members, token.IsProper) → Spells ts chars →
      Spells (memberTokens members ++ ts) (memberLayout newline space level members ++ chars)
  | [], _, _, _, more => by
      rw [memberLayout, List.append_assoc]
      exact .gaps (blank.breaks level) (.mark rfl rfl more)
  | (key, value) :: rest, chars, ts, proper, more => by
      simp only [memberTokens, List.cons_append, List.forall_mem_cons, List.forall_mem_append] at proper
      simp only [memberTokens, memberLayout, List.cons_append, List.append_assoc]
      exact .mark rfl rfl (.gaps (blank.breaks _) (.quoted (.mark rfl rfl (.gaps blank.space
        (spells_layout _ value _ _ proper.2.2.2.1 (stopsAt_memberLayout blank level rest)
          (spells_memberLayout level rest _ _ proper.2.2.2.2 more))))))

end

/-- The layout of a value spells its tokens, whatever its white space. -/
theorem spells_tokens_layout {json : Json} (proper : json.IsProper) (level : Nat) :
    Spells json.tokens (layout newline space level json) := by
  have spells := spells_layout blank level json [] [] proper Text.stopsAt_nil .nil
  rwa [List.append_nil, List.append_nil] at spells

end

variable {json : Json}

/-- The compact text spells the tokens of the value. -/
theorem spells_render (proper : json.IsProper) : Spells json.tokens json.render.toList := by
  rw [render, compact_eq_layout 0, String.toList_ofList]
  exact spells_tokens_layout ⟨fun _ => List.forall_mem_nil _, List.forall_mem_nil _⟩ proper 0

/-- The indented text spells the tokens of the value. -/
theorem spells_renderIndented (proper : json.IsProper) :
    Spells json.tokens json.renderIndented.toList := by
  rw [renderIndented, indented_eq_layout 0, String.toList_ofList]
  refine spells_tokens_layout ⟨fun level c member => ?_, List.forall_mem_singleton.2 rfl⟩ proper 0
  rcases List.mem_cons.1 member with rfl | spaces
  · rfl
  · rw [List.eq_of_mem_replicate spaces]
    rfl

/-- The compact text of a value is read as the value. -/
theorem read_render (proper : json.IsProper) : read json.render = .ok json :=
  read_of_spells (spells_render proper)

/-- The indented text of a value is read as the value. -/
theorem read_renderIndented (proper : json.IsProper) : read json.renderIndented = .ok json :=
  read_of_spells (spells_renderIndented proper)

end VersionMatrix.Json
