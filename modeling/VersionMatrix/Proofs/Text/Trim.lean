import VersionMatrix.Text.Blank
import VersionMatrix.Proofs.Text.Span

/-! What trimming takes off the ends of a text, and what it leaves there; what splitting a text into words
leaves of each. -/
namespace VersionMatrix.Text

variable {p : Char → Bool} {c : Char}

/-- A text is what is dropped at its front and the rest. -/
theorem exists_append_dropWhile (p : Char → Bool) (text : List Char) :
    ∃ lead, text = lead ++ text.dropWhile p ∧ ∀ c ∈ lead, p c = true :=
  ⟨text.takeWhile p, List.takeWhile_append_dropWhile.symm,
    fun _ member => List.all_eq_true.1 List.all_takeWhile _ member⟩

/-- A text is what is left of it and what is dropped at its end. -/
theorem exists_dropEndWhile_append (p : Char → Bool) (text : List Char) :
    ∃ trail, text = dropEndWhile p text ++ trail ∧ ∀ c ∈ trail, p c = true := by
  obtain ⟨lead, whole, dropped⟩ := exists_append_dropWhile p text.reverse
  refine ⟨lead.reverse, ?_, fun c member => dropped c (List.mem_reverse.1 member)⟩
  rw [dropEndWhile, ← List.reverse_append, ← whole, List.reverse_reverse]

/-- A strip takes off nothing but what it is told to. -/
theorem exists_append_stripWhile (p : Char → Bool) (text : List Char) :
    ∃ lead trail, text = lead ++ stripWhile p text ++ trail ∧
      (∀ c ∈ lead, p c = true) ∧ ∀ c ∈ trail, p c = true := by
  obtain ⟨lead, front, dropped⟩ := exists_append_dropWhile p text
  obtain ⟨trail, back, dropped'⟩ := exists_dropEndWhile_append p (text.dropWhile p)
  refine ⟨lead, trail, ?_, dropped, dropped'⟩
  rw [List.append_assoc, stripWhile, ← back, ← front]

/-- What a strip leaves does not begin with a character that it takes off. -/
theorem head?_stripWhile {text : List Char} (kept : (stripWhile p text).head? = some c) :
    p c = false := by
  obtain ⟨trail, whole, -⟩ := exists_dropEndWhile_append p (text.dropWhile p)
  have first : (text.dropWhile p).head? = some c := by
    rw [whole, List.head?_append, ← stripWhile, kept, Option.some_or]
  exact stopsAt_dropWhile p text c first

theorem getLast?_dropEndWhile {text : List Char} (kept : (dropEndWhile p text).getLast? = some c) :
    p c = false := by
  rw [dropEndWhile, List.getLast?_reverse] at kept
  exact stopsAt_dropWhile p _ c kept

/-- What a strip leaves does not end with such a character either. -/
theorem getLast?_stripWhile {text : List Char} (kept : (stripWhile p text).getLast? = some c) :
    p c = false :=
  getLast?_dropEndWhile kept

/-- A text that neither begins nor ends with white space. -/
structure IsTrimmed (text : String) : Prop where
  front : ∀ c, text.toList.head? = some c → isBlankChar c = false
  back : ∀ c, text.toList.getLast? = some c → isBlankChar c = false

theorem IsTrimmed.isBlank_eq_false {text : String} (trimmed : IsTrimmed text) (filled : text ≠ "") :
    isBlank text = false := by
  rw [isBlank, List.all_eq_false]
  cases chars : text.toList with
  | nil => exact absurd (String.toList_eq_nil_iff.1 chars) filled
  | cons c rest =>
      have first : text.toList.head? = some c := by rw [chars, List.head?_cons]
      exact ⟨c, List.mem_cons_self, by simp [trimmed.front c first]⟩

/-- What has been trimmed is trimmed. -/
theorem isTrimmed_trim (text : String) : IsTrimmed (trim text) where
  front c first := by
    rw [trim, String.toList_ofList] at first
    exact head?_stripWhile first
  back c last := by
    rw [trim, String.toList_ofList] at last
    exact getLast?_stripWhile last

/-- What is stripped at the front does not show. -/
theorem stripWhile_append_left {lead : List Char} (all : ∀ c ∈ lead, p c = true) (text : List Char) :
    stripWhile p (lead ++ text) = stripWhile p text := by
  rw [stripWhile, List.dropWhile_append_of_pos all, ← stripWhile]

theorem dropEndWhile_append_of_pos {trail : List Char} (all : ∀ c ∈ trail, p c = true)
    (text : List Char) : dropEndWhile p (text ++ trail) = dropEndWhile p text := by
  rw [dropEndWhile, List.reverse_append, List.dropWhile_append_of_pos (by simpa using all),
    ← dropEndWhile]

/-- What is stripped at the end does not show. -/
theorem stripWhile_append_right {trail : List Char} (all : ∀ c ∈ trail, p c = true)
    (text : List Char) : stripWhile p (text ++ trail) = stripWhile p text := by
  rw [stripWhile, List.dropWhile_append]
  split
  next gone =>
      have gone' : trail.dropWhile p = [] := List.dropWhile_eq_nil_iff.2 all
      rw [stripWhile, gone', List.isEmpty_iff.1 gone]
  next => rw [dropEndWhile_append_of_pos all, ← stripWhile]

/-- A character that is kept is kept in front of the rest. -/
theorem stripWhile_cons (kept : p c = false) (rest : List Char) :
    stripWhile p (c :: rest) = c :: dropEndWhile p rest := by
  rw [stripWhile, List.dropWhile_cons_of_neg (by simp [kept]), dropEndWhile, List.reverse_cons,
    List.dropWhile_append]
  split
  next gone =>
      rw [List.dropWhile_cons_of_neg (by simp [kept]), dropEndWhile, List.isEmpty_iff.1 gone]
      rfl
  next => rw [List.reverse_concat, dropEndWhile]

/-- A text with nothing to strip at either end stays as it is. -/
theorem stripWhile_eq_self {text : List Char} (front : StopsAt p text)
    (back : StopsAt p text.reverse) : stripWhile p text = text := by
  have none : ∀ c ∈ ([] : List Char), p c = true := List.forall_mem_nil _
  rw [stripWhile, ← List.nil_append text, front.dropWhile_append none, dropEndWhile,
    ← List.nil_append text.reverse, back.dropWhile_append none, List.reverse_reverse, List.nil_append]

/-- A text is what is left of it with more put around it, if nothing of its own would come off. -/
theorem stripWhile_append {lead text trail : List Char} (front : ∀ c ∈ lead, p c = true)
    (back : ∀ c ∈ trail, p c = true) (first : StopsAt p text) (last : StopsAt p text.reverse) :
    stripWhile p (lead ++ (text ++ trail)) = text := by
  rw [stripWhile_append_left front, stripWhile_append_right back, stripWhile_eq_self first last]

/-- A text that is not empty and holds no white space. -/
structure IsWord (text : String) : Prop where
  filled : text ≠ ""
  solid : ∀ c ∈ text.toList, isBlankChar c = false

theorem of_mem_splitOnP {text piece : List Char} (member : piece ∈ text.splitOnP p) :
    ∀ c ∈ piece, p c = false := by
  induction text generalizing piece with
  | nil =>
      rw [List.splitOnP_nil, List.mem_singleton] at member
      simp [member]
  | cons first rest ih =>
      cases separates : p first with
      | true =>
          rw [List.splitOnP_cons_eq_if_modifyHead, if_pos separates] at member
          rcases List.mem_cons.1 member with rfl | later
          · nofun
          · exact ih later
      | false =>
          -- The first piece of the rest is the one that the character goes in front of.
          rw [List.splitOnP_cons_eq_if_modifyHead, if_neg (by simp [separates])] at member
          obtain ⟨head, tail, pieces⟩ := List.exists_cons_of_ne_nil (List.splitOnP_ne_nil p rest)
          rw [pieces, List.modifyHead_cons] at member
          rcases List.mem_cons.1 member with rfl | later
          · exact List.forall_mem_cons.2 ⟨separates, ih (pieces ▸ List.mem_cons_self)⟩
          · exact ih (pieces ▸ List.mem_cons_of_mem _ later)

/-- The words of a text are without white space and not empty. -/
theorem isWord_of_mem_words {text word : String} (member : word ∈ words text) : IsWord word := by
  obtain ⟨piece, kept, rfl⟩ := List.mem_map.1 member
  obtain ⟨split, filled⟩ := List.mem_filter.1 kept
  refine ⟨fun empty => ?_, ?_⟩
  · rw [← String.toList_inj, String.toList_ofList] at empty
    rw [empty] at filled
    cases filled
  · rw [String.toList_ofList]
    exact of_mem_splitOnP split

end VersionMatrix.Text
