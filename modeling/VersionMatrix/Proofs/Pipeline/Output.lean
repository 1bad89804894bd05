import VersionMatrix.Pipeline.Output
import VersionMatrix.Proofs.Text.Lines

/-! What a collector captures, and what it shows on the way: the lines of what it captures, however
these were cut into chunks. -/
namespace VersionMatrix

namespace OutputCollector

variable {collector : OutputCollector}

theorem isBlankChar_of_return (c : Char) (returns : (c == '\r') = true) :
    Text.isBlankChar c = true := by
  rw [eq_of_beq returns]
  rfl

/-- The line feed at the end of a line, and what is before it, are shown as the line alone would be. -/
theorem shownEnded?_concat {line : List Char} (ends : '\n' ∉ line) :
    shownEnded? (line ++ ['\n']) = shown? line := by
  have kept : Text.dropEndWhile (fun c => c == '\n' || c == '\r') (line ++ ['\n']) =
      Text.dropEndWhile (· == '\r') line := by
    rw [Text.dropEndWhile_concat_of_pos (by rfl)]
    refine Text.dropEndWhile_congr fun c member => ?_
    have other : c ≠ '\n' := fun feed => ends (feed ▸ member)
    simp [other]
  simp only [shownEnded?, shown?, kept, Text.all_dropEndWhile isBlankChar_of_return]

theorem takeLines_of_notMem {line : List Char} (ends : '\n' ∉ line) : takeLines line = ([], line) := by
  rw [takeLines]
  split
  next => rfl
  next last found =>
      obtain ⟨within, feed, -⟩ := List.findIdx?_eq_some_iff_getElem.1 found
      have feeds := List.getElem_mem within
      rw [eq_of_beq feed] at feeds
      exact absurd feeds ends

theorem takeLines_line {line : List Char} (ends : '\n' ∉ line) (rest : List Char) :
    takeLines (line ++ '\n' :: rest) =
      ((shown? line).toList ++ (takeLines rest).1, (takeLines rest).2) := by
  have found : (line ++ '\n' :: rest).idxOf? '\n' = some line.length := by
    refine List.findIdx?_eq_some_iff_getElem.2 ⟨by simp, by simp, fun before within => ?_⟩
    rw [List.getElem_append_left within, Bool.not_eq_true, beq_eq_false_iff_ne]
    exact fun feed => ends (feed ▸ List.getElem_mem within)
  rw [takeLines]
  split
  next absent => rw [found] at absent; cases absent
  next last same =>
      obtain rfl := Option.some.inj (found.symm.trans same)
      have front : (line ++ '\n' :: rest).take (line.length + 1) = line ++ ['\n'] := by
        rw [List.take_length_add_append, List.take_succ_cons, List.take_zero]
      have back : (line ++ '\n' :: rest).drop (line.length + 1) = rest := by
        rw [List.drop_length_add_append, List.drop_succ_cons, List.drop_zero]
      simp only [front, back, shownEnded?_concat ends]

def endedPieces (text : List Char) : List (List Char) := (text.splitOn '\n').dropLast

/-- The last piece of a text, which is not ended. -/
def openPiece (text : List Char) : List Char := (text.splitOn '\n').getLastD []

def shownPieces (pieces : List (List Char)) : List String :=
  (pieces.filter fun piece => !piece.all Text.isBlankChar).map fun piece =>
    String.ofList (Text.dropEndWhile (· == '\r') piece)

theorem shownPieces_append (first second : List (List Char)) :
    shownPieces (first ++ second) = shownPieces first ++ shownPieces second := by
  simp [shownPieces]

theorem shownPieces_singleton (piece : List Char) :
    shownPieces [piece] = (shown? piece).toList := by
  cases blank : piece.all Text.isBlankChar <;> simp [shownPieces, shown?, blank]

theorem filterMap_shown? (pieces : List (List Char)) :
    pieces.filterMap shown? = shownPieces pieces := by
  induction pieces with
  | nil => rfl
  | cons piece rest ih =>
      rw [← List.singleton_append, shownPieces_append, ← ih, shownPieces_singleton]
      cases shown : shown? piece <;> simp [shown]

/-- A text is the pieces that line feeds end, and one more that none ends. -/
theorem splitOn_eq_concat (text : List Char) :
    text.splitOn '\n' = endedPieces text ++ [openPiece text] := by
  obtain ⟨before, last, pieces, -⟩ := Text.exists_splitOn_eq text
  simp [endedPieces, openPiece, pieces]

/-- The piece that is not ended holds no line feed. -/
theorem notMem_openPiece (text : List Char) : '\n' ∉ openPiece text := by
  have member : openPiece text ∈ text.splitOn '\n' := by
    rw [splitOn_eq_concat]
    exact List.mem_concat_self
  exact Text.notMem_of_mem_splitOn member

/-- More text goes on with the piece that was open. -/
theorem pieces_append (first second : List Char) :
    endedPieces (first ++ second) =
        endedPieces first ++ endedPieces (openPiece first ++ second) ∧
      openPiece (first ++ second) = openPiece (openPiece first ++ second) := by
  have whole : endedPieces (first ++ second) ++ [openPiece (first ++ second)] =
      endedPieces first ++ endedPieces (openPiece first ++ second) ++
        [openPiece (openPiece first ++ second)] := by
    rw [← splitOn_eq_concat, List.append_assoc, ← splitOn_eq_concat]
    exact Text.splitOn_append first second
  obtain ⟨ended, last⟩ := List.append_inj' whole rfl
  exact ⟨ended, List.singleton_inj.1 last⟩

theorem pieces_of_notMem {line : List Char} (ends : '\n' ∉ line) :
    endedPieces line = [] ∧ openPiece line = line := by
  simp [endedPieces, openPiece, List.splitOn_eq_singleton ends]

/-- The pieces between line feeds are taken one by one, up to the last. -/
theorem takeLines_eq (text : List Char) :
    takeLines text = (shownPieces (endedPieces text), openPiece text) := by
  induction text using Text.line_induction with
  | last line ends =>
      obtain ⟨ended, last⟩ := pieces_of_notMem ends
      rw [takeLines_of_notMem ends, ended, last]
      rfl
  | more line rest ends ih =>
      have pieces : endedPieces (line ++ '\n' :: rest) ++ [openPiece (line ++ '\n' :: rest)] =
          [line] ++ endedPieces rest ++ [openPiece rest] := by
        rw [← splitOn_eq_concat, List.append_assoc, ← splitOn_eq_concat, Text.splitOn_line ends,
          List.singleton_append]
      obtain ⟨ended, last⟩ := List.append_inj' pieces rfl
      rw [takeLines_line ends, ih, ended, List.singleton_inj.1 last, shownPieces_append,
        shownPieces_singleton]

theorem echo_write (chunk : String) : (collector.write chunk).1.echo = collector.echo := by
  unfold write
  split <;> rfl

/-- What is written is captured, whether it is shown or not. -/
theorem captured_write (chunk : String) :
    (collector.write chunk).1.captured = collector.captured ++ chunk := by
  unfold write
  split <;> rfl

/-- The output is that of the container, whatever is shown of it. -/
theorem captured_writeAll (chunks : List String) :
    (collector.writeAll chunks).1.captured = collector.captured ++ String.join chunks := by
  induction chunks generalizing collector with
  | nil => simp [writeAll, String.join]
  | cons chunk rest ih =>
      simp only [writeAll, ih, captured_write, String.join_cons, String.append_assoc]

theorem echo_writeAll (collector : OutputCollector) (chunks : List String) :
    (collector.writeAll chunks).1.echo = collector.echo := by
  induction chunks generalizing collector with
  | nil => rfl
  | cons chunk rest ih => simp only [writeAll, ih, echo_write]

theorem lines_write_of_not_echo (silent : collector.echo = false) (chunk : String) :
    (collector.write chunk).2 = [] := by
  simp [write, silent]

/-- A silent collector shows nothing while it is written to. -/
theorem writeAll_of_not_echo (silent : collector.echo = false) (chunks : List String) :
    (collector.writeAll chunks).2 = [] := by
  induction chunks generalizing collector with
  | nil => rfl
  | cons chunk rest ih =>
      simp only [writeAll, lines_write_of_not_echo silent,
        ih ((echo_write chunk).trans silent), List.append_nil]

/-- A silent collector shows nothing at the end either. -/
theorem finish_of_not_echo (silent : collector.echo = false) : collector.finish = [] := by
  simp [finish, silent]

/-- A chunk shows the lines that it completes together with what came before it. -/
theorem lines_write (loud : collector.echo = true) (chunk : String) :
    (collector.write chunk).2 = shownPieces (endedPieces (collector.pending ++ chunk.toList)) := by
  simp [write, loud, takeLines_eq]

/-- What is left after a chunk is the piece that nothing has ended. -/
theorem pending_write (loud : collector.echo = true) (chunk : String) :
    (collector.write chunk).1.pending = openPiece (collector.pending ++ chunk.toList) := by
  simp [write, loud, takeLines_eq]

/-- The end completes the piece that is left. -/
theorem finish_of_echo (loud : collector.echo = true) :
    collector.finish = shownPieces [collector.pending] := by
  rw [finish, if_pos loud, shownPieces_singleton]

/-- After any chunks, the lines that they end have been shown, and the one that they leave open is
kept. -/
theorem writeAll_pieces (loud : collector.echo = true) (ends : '\n' ∉ collector.pending)
    (chunks : List String) :
    let text := collector.pending ++ (String.join chunks).toList
    (collector.writeAll chunks).2 = shownPieces (endedPieces text) ∧
      (collector.writeAll chunks).1.pending = openPiece text := by
  induction chunks generalizing collector with
  | nil =>
      obtain ⟨ended, last⟩ := pieces_of_notMem ends
      have nothing : (String.join []).toList = [] := rfl
      simp only [nothing, List.append_nil, ended, last]
      exact ⟨rfl, rfl⟩
  | cons chunk rest ih =>
      have pending := pending_write loud chunk
      have fresh : '\n' ∉ (collector.write chunk).1.pending :=
        pending ▸ notMem_openPiece (collector.pending ++ chunk.toList)
      have whole : collector.pending ++ (String.join (chunk :: rest)).toList =
          collector.pending ++ chunk.toList ++ (String.join rest).toList := by
        rw [String.join_cons, String.toList_append, List.append_assoc]
      obtain ⟨shown, kept⟩ := ih ((echo_write chunk).trans loud) fresh
      obtain ⟨ended, last⟩ := pieces_append (collector.pending ++ chunk.toList)
        (String.join rest).toList
      simp only [writeAll, whole, shown, kept, lines_write loud, pending, ended, last,
        shownPieces_append, and_self]

/-- The lines that are shown of a text that comes to its end. -/
def shownLines (text : String) : List String := (text.toList.splitOn '\n').filterMap shown?

/-- The chunks make no difference to what is shown in the end: that depends on nothing but the text that
they add up to. -/
theorem lines_writeAll (loud : collector.echo = true) (ends : '\n' ∉ collector.pending)
    (chunks : List String) :
    (collector.writeAll chunks).2 ++ (collector.writeAll chunks).1.finish =
      ((collector.pending ++ (String.join chunks).toList).splitOn '\n').filterMap shown? := by
  obtain ⟨shown, pending⟩ := writeAll_pieces loud ends chunks
  have echo := (echo_writeAll collector chunks).trans loud
  rw [filterMap_shown?, splitOn_eq_concat, shownPieces_append, shown, finish_of_echo echo, pending]

/-- A piece is shown with all of its text, but for blank pieces and carriage returns. -/
theorem lines_of_shown? {piece : List Char} (ends : '\n' ∉ piece) :
    (shown? piece).toList.flatMap Text.filledLines = Text.filledPieces [piece] := by
  rw [Text.filledPieces_singleton, shown?]
  cases blank : piece.all Text.isBlankChar with
  | true => rfl
  | false =>
      have kept : '\n' ∉ Text.dropEndWhile (· == '\r') piece := fun member =>
        ends (Text.dropEndWhile_subset piece member)
      simp [Text.filledLines_ofList kept, Text.filledPieces_singleton,
        Text.dropEndWhile_dropEndWhile isBlankChar_of_return,
        Text.all_dropEndWhile isBlankChar_of_return, blank]

/-- Of a text that is shown nothing is lost but blank lines and white space at the ends of lines. -/
theorem flatMap_filledLines_shownLines (text : String) :
    (shownLines text).flatMap Text.filledLines = Text.filledLines text := by
  have piecewise (pieces : List (List Char)) (ended : ∀ piece ∈ pieces, '\n' ∉ piece) :
      (pieces.filterMap shown?).flatMap Text.filledLines = Text.filledPieces pieces := by
    induction pieces with
    | nil => rfl
    | cons piece rest ih =>
        obtain ⟨ends, others⟩ := List.forall_mem_cons.1 ended
        rw [← List.singleton_append, Text.filledPieces_append, ← ih others, ← lines_of_shown? ends,
          List.filterMap_append, List.flatMap_append]
        cases shown : shown? piece <;> simp [shown]
  rw [Text.filledLines_eq, shownLines, piecewise _ fun _ => Text.notMem_of_mem_splitOn]

/-- What has been shown after chunks, what one chunk more shows, and what the end shows. -/
theorem shown_writeAll (echo : Bool) (chunks : List String) :
    let last := (writeAll { echo } chunks).1
    let text := (String.join chunks).toList
    (writeAll { echo } chunks).2 = (if echo then shownPieces (endedPieces text) else []) ∧
      (∀ chunk, (last.write chunk).2 =
        if echo then shownPieces (endedPieces (openPiece text ++ chunk.toList)) else []) ∧
      last.finish = (if echo then shownPieces [openPiece text] else []) := by
  have kept := echo_writeAll { echo } chunks
  cases echo with
  | false =>
      exact ⟨writeAll_of_not_echo rfl chunks, lines_write_of_not_echo kept, finish_of_not_echo kept⟩
  | true =>
      obtain ⟨lines, pending⟩ := @writeAll_pieces { echo := true } rfl List.not_mem_nil chunks
      refine ⟨lines, fun chunk => ?_, ?_⟩
      · rw [lines_write kept, pending]
        rfl
      · rw [finish_of_echo kept, pending]
        rfl

/-- No line that is shown holds a line feed. -/
theorem notMem_of_mem_shownPieces {pieces : List (List Char)} {line : String}
    (ends : ∀ piece ∈ pieces, '\n' ∉ piece) (shown : line ∈ shownPieces pieces) :
    '\n' ∉ line.toList := by
  obtain ⟨piece, kept, rfl⟩ := List.mem_map.1 shown
  rw [String.toList_ofList]
  intro fed
  exact ends piece (List.mem_filter.1 kept).1 (Text.dropEndWhile_subset piece fed)

/-- What a collector makes of the chunks of an output. It captures the text that they add up to, and if
it shows lines, these are the pieces of that text between line feeds that are not blank, without
the carriage returns at their ends; how the text is cut makes no difference. So far it has shown
the pieces that are ended, a chunk more shows what that ends, and the end shows what is left. -/
theorem collects_output (echo : Bool) (chunks : List String) :
    let start : OutputCollector := { echo }
    let last := (start.writeAll chunks).1
    let lines := (start.writeAll chunks).2
    let text := (String.join chunks).toList
    last.captured = String.join chunks ∧
    lines ++ last.finish = (if echo then shownPieces (text.splitOn '\n') else []) ∧
    lines = (if echo then shownPieces (endedPieces text) else []) ∧
    (∀ chunk, (last.write chunk).2 =
      if echo then shownPieces (endedPieces (openPiece text ++ chunk.toList)) else []) ∧
    last.finish = (if echo then shownPieces [openPiece text] else []) ∧
    (∀ others, String.join others = String.join chunks →
      (start.writeAll others).1.captured = last.captured ∧
      (start.writeAll others).2 ++ (start.writeAll others).1.finish = lines ++ last.finish) ∧
    ∀ line ∈ lines ++ last.finish, '\n' ∉ line.toList := by
  intro start last lines text
  have captured (chunks : List String) : (start.writeAll chunks).1.captured = String.join chunks :=
    (captured_writeAll chunks).trans (String.empty_append)
  have shown (chunks : List String) :
      (start.writeAll chunks).2 ++ (start.writeAll chunks).1.finish =
        if echo then shownPieces ((String.join chunks).toList.splitOn '\n') else [] := by
    obtain ⟨lines, -, finish⟩ := shown_writeAll echo chunks
    rw [lines, finish]
    split
    next => rw [splitOn_eq_concat, shownPieces_append]
    next => rfl
  obtain ⟨before, next, finish⟩ := shown_writeAll echo chunks
  refine ⟨captured chunks, shown chunks, before, next, finish, fun others same => ?_, ?_⟩
  · rw [captured, captured, shown, shown, same]
    exact ⟨rfl, rfl⟩
  · rw [shown]
    intro line member
    split at member
    next => exact notMem_of_mem_shownPieces (fun _ => Text.notMem_of_mem_splitOn) member
    next => cases member

end OutputCollector

end VersionMatrix
