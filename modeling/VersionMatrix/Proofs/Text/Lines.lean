import VersionMatrix.Text.Blank
import Mathlib.Data.List.Induction
import Mathlib.Data.List.TakeWhile

/-! The lines of a text, cut at its line feeds, and what is left of them when blank lines and the white
space at their ends do not count. -/
namespace VersionMatrix.Text

/-- The lines of a text that are not blank, up to white space at their ends. -/
def filledLines (text : String) : List String :=
  ((lines text).filter fun line => !isBlank line).map trimEnd

/-- A text without a line feed is a line, and any other text is one followed by a text. -/
theorem line_induction {motive : List Char → Prop} (last : ∀ line, '\n' ∉ line → motive line)
    (more : ∀ line rest, '\n' ∉ line → motive rest → motive (line ++ '\n' :: rest))
    (text : List Char) : motive text := by
  induction size : text.length using Nat.strongRecOn generalizing text with
  | ind length ih =>
      by_cases fed : '\n' ∈ text
      · obtain ⟨line, rest, rfl, ends⟩ := List.eq_append_cons_of_mem fed
        refine more line rest ends (ih rest.length ?_ rest rfl)
        rw [← size, List.length_append, List.length_cons]
        omega
      · exact last text fed

/-- A line is cut off at its end. -/
theorem splitOn_line {line : List Char} (ends : '\n' ∉ line) (rest : List Char) :
    (line ++ '\n' :: rest).splitOn '\n' = line :: rest.splitOn '\n' := by
  rw [List.splitOn_append_cons_self, List.splitOn_eq_singleton ends, List.singleton_append]

theorem notMem_of_mem_splitOn {text line : List Char} (member : line ∈ text.splitOn '\n') :
    '\n' ∉ line := by
  induction text using line_induction with
  | last piece ends =>
      rw [List.splitOn_eq_singleton ends, List.mem_singleton] at member
      exact member ▸ ends
  | more piece rest ends ih =>
      rw [splitOn_line ends] at member
      rcases List.mem_cons.1 member with rfl | later
      · exact ends
      · exact ih later

theorem exists_splitOn_eq (text : List Char) :
    ∃ before last, text.splitOn '\n' = before ++ [last] ∧ '\n' ∉ last := by
  have pieces := List.dropLast_concat_getLast (List.splitOn_ne_nil '\n' text)
  exact ⟨_, _, pieces.symm, notMem_of_mem_splitOn (List.getLast_mem _)⟩

/-- The first line of a text goes on with what comes next, up to where that is cut. -/
theorem exists_splitOn_append {start : List Char} (ends : '\n' ∉ start) (rest : List Char) :
    ∃ line more later, rest = line ++ more ∧ (start ++ rest).splitOn '\n' = (start ++ line) :: later := by
  by_cases fed : '\n' ∈ rest
  · obtain ⟨line, more, rfl, ends'⟩ := List.eq_append_cons_of_mem fed
    refine ⟨line, '\n' :: more, more.splitOn '\n', rfl, ?_⟩
    rw [← List.append_assoc, splitOn_line (List.not_mem_append ends ends')]
  · exact ⟨rest, [], [], (List.append_nil _).symm,
      List.splitOn_eq_singleton (List.not_mem_append ends fed)⟩

/-- The last piece of a text is where more text goes on. -/
theorem splitOn_append (first second : List Char) :
    (first ++ second).splitOn '\n' =
      (first.splitOn '\n').dropLast ++
        ((first.splitOn '\n').getLastD [] ++ second).splitOn '\n' := by
  induction first using line_induction with
  | last line ends => simp [List.splitOn_eq_singleton ends]
  | more line rest ends ih =>
      have filled := List.splitOn_ne_nil '\n' rest
      rw [List.append_assoc, List.cons_append, splitOn_line ends, splitOn_line ends, ih,
        List.dropLast_cons_of_ne_nil filled, List.cons_append]
      cases pieces : rest.splitOn '\n' with
      | nil => exact absurd pieces filled
      | cons piece others => simp

theorem dropEndWhile_concat_of_pos {p : Char → Bool} {c : Char} (drops : p c = true)
    (text : List Char) : dropEndWhile p (text ++ [c]) = dropEndWhile p text := by
  simp [dropEndWhile, drops]

/-- What is dropped from the end may be dropped before. -/
theorem dropEndWhile_dropEndWhile {p q : Char → Bool} (drops : ∀ c, p c = true → q c = true)
    (text : List Char) : dropEndWhile q (dropEndWhile p text) = dropEndWhile q text := by
  induction text using List.reverseRecOn with
  | nil => rfl
  | append_singleton text c ih =>
      cases dropped : p c with
      | true =>
          rw [dropEndWhile_concat_of_pos dropped, ih, dropEndWhile_concat_of_pos (drops c dropped)]
      | false => simp [dropEndWhile, dropped]

/-- Whether all characters are of a kind does not depend on those dropped at the end, if they are of
that kind. -/
theorem all_dropEndWhile {p q : Char → Bool} (drops : ∀ c, p c = true → q c = true)
    (text : List Char) : (dropEndWhile p text).all q = text.all q := by
  induction text using List.reverseRecOn with
  | nil => rfl
  | append_singleton text c ih =>
      cases dropped : p c with
      | true => rw [dropEndWhile_concat_of_pos dropped, ih]; simp [drops c dropped]
      | false => simp [dropEndWhile, dropped]

theorem dropEndWhile_subset {p : Char → Bool} (text : List Char) : dropEndWhile p text ⊆ text :=
  fun _ member => List.mem_reverse.1 (List.dropWhile_subset _ (List.mem_reverse.1 member))

theorem dropEndWhile_congr {p q : Char → Bool} {text : List Char} (same : ∀ c ∈ text, p c = q c) :
    dropEndWhile p text = dropEndWhile q text := by
  induction text using List.reverseRecOn with
  | nil => rfl
  | append_singleton text c ih =>
      have last : p c = q c := same c List.mem_concat_self
      cases dropped : q c with
      | true =>
          rw [dropEndWhile_concat_of_pos (last.trans dropped), dropEndWhile_concat_of_pos dropped,
            ih fun other member => same other (List.mem_append_left _ member)]
      | false => simp [dropEndWhile, dropped, last]

/-- Whether a line is blank does not depend on its carriage return. -/
theorem isBlank_ofList_dropReturn (line : List Char) :
    isBlank (String.ofList (dropReturn line)) = line.all isBlankChar := by
  unfold dropReturn
  split
  next returned =>
      obtain ⟨before, rfl⟩ := List.getLast?_eq_some_iff.1 returned
      simp [isBlank, show isBlankChar '\r' = true from rfl]
  next => simp [isBlank]

/-- A line that is trimmed loses its carriage return too. -/
theorem trimEnd_ofList_dropReturn (line : List Char) :
    trimEnd (String.ofList (dropReturn line)) =
      String.ofList (dropEndWhile isBlankChar line) := by
  unfold dropReturn
  split
  next returned =>
      obtain ⟨before, rfl⟩ := List.getLast?_eq_some_iff.1 returned
      rw [dropEndWhile_concat_of_pos (by rfl)]
      simp [trimEnd]
  next => simp [trimEnd]

def filledPieces (pieces : List (List Char)) : List String :=
  (pieces.filter fun piece => !piece.all isBlankChar).map fun piece =>
    String.ofList (dropEndWhile isBlankChar piece)

theorem filledPieces_append (first second : List (List Char)) :
    filledPieces (first ++ second) = filledPieces first ++ filledPieces second := by
  simp [filledPieces]

theorem filledPieces_singleton (piece : List Char) :
    filledPieces [piece] =
      if piece.all isBlankChar then [] else [String.ofList (dropEndWhile isBlankChar piece)] := by
  cases blank : piece.all isBlankChar <;> simp [filledPieces, blank]

/-- Carriage returns and the end of the last line make no difference. -/
theorem filledLines_eq (text : String) :
    filledLines text = filledPieces (text.toList.splitOn '\n') := by
  obtain ⟨before, last, pieces, -⟩ := exists_splitOn_eq text.toList
  have ended : ((before.map fun line => String.ofList (dropReturn line)).filter
      fun line => !isBlank line).map trimEnd = filledPieces before := by
    simp [filledPieces, List.filter_map, Function.comp_def, isBlank_ofList_dropReturn,
      trimEnd_ofList_dropReturn]
  have open' : ((if last.isEmpty then [] else [String.ofList last]).filter
      fun line => !isBlank line).map trimEnd = filledPieces [last] := by
    cases last with
    | nil => rfl
    | cons c rest =>
        rw [List.isEmpty_cons, if_neg Bool.false_ne_true, filledPieces_singleton]
        generalize c :: rest = piece
        cases blank : piece.all isBlankChar <;> simp [isBlank, trimEnd, blank]
  rw [filledLines, lines, pieces, filledPieces_append, ← ended, ← open']
  simp

/-- White space at the end of a piece does not show in its line. -/
theorem filledPieces_concat {piece : List Char} {c : Char} (blank : isBlankChar c = true) :
    filledPieces [piece ++ [c]] = filledPieces [piece] := by
  rw [filledPieces_singleton, filledPieces_singleton, dropEndWhile_concat_of_pos blank]
  simp [blank]

/-- White space at the end of a text leaves nothing, be it lines of its own or the end of the last. -/
theorem filledPieces_splitOn_concat (text : List Char) {c : Char} (blank : isBlankChar c = true) :
    filledPieces ((text ++ [c]).splitOn '\n') = filledPieces (text.splitOn '\n') := by
  by_cases feed : c = '\n'
  · rw [feed, List.splitOn_append_cons_self, filledPieces_append]
    simp [filledPieces]
  · obtain ⟨before, last, pieces, ends⟩ := exists_splitOn_eq text
    have whole : '\n' ∉ last ++ [c] := by simp [ends, Ne.symm feed]
    rw [splitOn_append, pieces, List.getLastD_concat, List.dropLast_concat,
      List.splitOn_eq_singleton whole, filledPieces_append, filledPieces_append,
      filledPieces_concat blank]

/-- White space at the end of a text does not show in its lines. -/
theorem filledLines_trimEnd (text : String) : filledLines (trimEnd text) = filledLines text := by
  rw [filledLines_eq, filledLines_eq, trimEnd, String.toList_ofList]
  generalize text.toList = text
  induction text using List.reverseRec with
  | nil => rfl
  | append_singleton text c ih =>
      cases blank : isBlankChar c with
      | true => rw [dropEndWhile_concat_of_pos blank, ih, filledPieces_splitOn_concat text blank]
      | false => simp [dropEndWhile, blank]

/-- A blank text has no lines to show. -/
theorem filledLines_of_isBlank {text : String} (blank : isBlank text = true) :
    filledLines text = [] := by
  have nothing : dropEndWhile isBlankChar text.toList = [] := by
    simpa [dropEndWhile, isBlank] using blank
  rw [← filledLines_trimEnd, trimEnd, nothing]
  rfl

/-- A text without a line feed leaves one line or none. -/
theorem filledLines_ofList {line : List Char} (ends : '\n' ∉ line) :
    filledLines (String.ofList line) = filledPieces [line] := by
  rw [filledLines_eq, String.toList_ofList, List.splitOn_eq_singleton ends]

end VersionMatrix.Text
