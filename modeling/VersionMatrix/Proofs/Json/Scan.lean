import VersionMatrix.Proofs.Json.Spelling

/-! The scan of a text that lays out tokens: it finds these tokens, whatever white space stands between
them, whatever characters their strings hold and however these are spelled. -/
namespace VersionMatrix.Json

/-- Whether a word or number goes on with this character. -/
def goesOn (c : Char) : Bool := isNumberChar c || c.isAlpha

namespace Token

def spelling : Token → List Char
  | .openBrace => ['\x7b']
  | .closeBrace => ['\x7d']
  | .openBracket => ['[']
  | .closeBracket => [']']
  | .comma => [',']
  | .colon => [':']
  | .null => ['n', 'u', 'l', 'l']
  | .bool true => ['t', 'r', 'u', 'e']
  | .bool false => ['f', 'a', 'l', 's', 'e']
  | .number spelling => spelling.toList
  | .string text => quote text

/-- A number is spelled as one. -/
def IsProper : Token → Prop
  | .number spelling => isNumber spelling.toList = true
  | _ => True

/-- A number or string may have one of several spellings. -/
def Spelled : Token → List Char → Prop
  | .number spelling, chars => SpellsNumber chars ∧ String.ofList chars = spelling
  | .string text, chars => SpellsString text chars
  | token, chars => chars = token.spelling

/-- Whether only the character after a token shows that it has ended. -/
def isOpen : Token → Bool
  | .null | .bool _ | .number _ => true
  | _ => false

end Token

/-- A text that is made of these tokens in any of their spellings, with white space between them. Two words
or numbers do not touch. -/
inductive Spells : List Token → List Char → Prop
  | nil : Spells [] []
  | gap {c : Char} {tokens : List Token} {chars : List Char} (blank : isGap c = true)
      (more : Spells tokens chars) : Spells tokens (c :: chars)
  | token {token : Token} {tokens : List Token} {spelling chars : List Char}
      (spelled : token.Spelled spelling) (apart : token.isOpen = true → Text.StopsAt goesOn chars)
      (more : Spells tokens chars) : Spells (token :: tokens) (spelling ++ chars)

variable {c : Char} {chars rest digits : List Char} {mode next : Mode} {token : Token} {tokens : List Token}
  {s : OpenString}

theorem scanFrom_cons (tokens : List Token) (next : Mode) (step : scanChar mode c = .ok (tokens, next)) :
    scanFrom mode (c :: rest) = (scanFrom next rest).map (tokens ++ ·) := by
  rw [scanFrom, step]
  change (scanFrom next rest >>= fun more => pure (tokens ++ more)) = _
  cases scanFrom next rest <;> rfl

theorem scanFrom_cons_nil (next : Mode) (step : scanChar mode c = .ok ([], next)) :
    scanFrom mode (c :: rest) = scanFrom next rest := by
  rw [scanFrom_cons [] next step]
  cases scanFrom next rest <;> rfl

theorem scanFrom_start (next : Mode) (start : startToken c = .ok ([], next)) :
    scanFrom .between (c :: rest) = scanFrom next rest :=
  scanFrom_cons_nil next start

/-- A hexadecimal digit is read by its value. -/
theorem hexDigit?_of_isHexDigit {value : Nat} (isDigit : IsHexDigit c value) :
    hexDigit? c = some value := by
  have lower : ∀ n : Fin 16, hexDigit? ("0123456789abcdef".toList.get n) = some n.val := by decide
  have upper : ∀ n : Fin 16, hexDigit? ("0123456789ABCDEF".toList.get n) = some n.val := by decide
  rcases isDigit with found | found
  · obtain ⟨small, rfl⟩ := List.getElem?_eq_some_iff.1 found
    exact lower ⟨value, small⟩
  · obtain ⟨small, rfl⟩ := List.getElem?_eq_some_iff.1 found
    exact upper ⟨value, small⟩

theorem escaped?_of_mem {letter : Char} (known : (letter, c) ∈ letterEscapes) :
    escaped? letter = some c := by
  have all : ∀ row ∈ letterEscapes, escaped? row.1 = some row.2 := by decide
  exact all _ known

def OpenString.add (s : OpenString) : Symbol → OpenString
  | .char c => s.push c
  | .unit unit => s.pushUnit unit

/-- A spelled symbol is added to the string that is open. -/
theorem scanFrom_symbol {symbol : Symbol} (spelled : symbol.Spelled chars) :
    scanFrom (.string s) (chars ++ rest) = scanFrom (.string (s.add symbol)) rest := by
  cases spelled with
  | plain quote backslash printable =>
      refine scanFrom_cons_nil _ ?_
      rw [scanChar, if_neg quote, if_neg backslash, if_neg (Nat.not_lt.2 printable)]
      rfl
  | @letter letter c known =>
      have escape := escaped?_of_mem known
      have other : letter ≠ 'u' := by
        rintro rfl
        cases escape
      rw [List.cons_append, List.cons_append, List.nil_append, scanFrom_cons_nil (.escape s) rfl]
      refine scanFrom_cons_nil _ ?_
      rw [scanChar, if_neg other, escape]
      rfl
  | @unit first second third fourth a b d e isFirst isSecond isThird isFourth =>
      simp only [List.cons_append, List.nil_append]
      rw [scanFrom_cons_nil (.escape s) rfl, scanFrom_cons_nil (.unit s []) rfl,
        scanFrom_cons_nil (.unit s [a]), scanFrom_cons_nil (.unit s [a, b]),
        scanFrom_cons_nil (.unit s [a, b, d]), scanFrom_cons_nil]
      all_goals rw [scanChar, hexDigit?_of_isHexDigit ‹_›]
      all_goals rfl

/-- Spelled symbols are added one after the other. -/
theorem scanFrom_symbols {symbols : List Symbol} (spelled : SpellsSymbols symbols chars) :
    scanFrom (.string s) (chars ++ rest) = scanFrom (.string (symbols.foldl .add s)) rest := by
  induction spelled generalizing s with
  | nil => rfl
  | cons first _ ih => rw [List.append_assoc, scanFrom_symbol first, ih, List.foldl_cons]

/-- A code unit that waits for its partner makes a character with it. -/
theorem add_waiting {kept : Option (List Char)} {unit partner : Nat} :
    OpenString.add { kept, leading := some unit } (.unit partner) =
      { kept := if IsTrailing partner then kept.map (pairOf unit partner :: ·) else none } := by
  by_cases trailing : IsTrailing partner
  · rw [if_pos trailing]
    exact if_pos trailing
  · rw [if_neg trailing]
    exact if_neg trailing

theorem add_leading {kept : Option (List Char)} {unit : Nat} (leading : IsLeading unit) :
    OpenString.add { kept } (.unit unit) = { kept, leading := some unit } := by
  rw [OpenString.add, OpenString.pushUnit]
  exact if_pos leading

theorem add_trailing {kept : Option (List Char)} {unit : Nat} (trailing : IsTrailing unit) :
    OpenString.add { kept } (.unit unit) = { kept := none } := by
  have other : ¬ IsLeading unit := fun leading => by
    rw [IsLeading] at leading
    rw [IsTrailing] at trailing
    omega
  rw [OpenString.add, OpenString.pushUnit]
  exact (if_neg other).trans (if_pos trailing)

theorem add_unit {kept : Option (List Char)} {unit : Nat} (leading : ¬ IsLeading unit)
    (trailing : ¬ IsTrailing unit) :
    OpenString.add { kept } (.unit unit) = { kept := kept.map (Char.ofNat unit :: ·) } := by
  rw [OpenString.add, OpenString.pushUnit]
  exact (if_neg leading).trans (if_neg trailing)

/-- A string that has lost its text does not get one again. -/
theorem kept_add {symbol : Symbol} (lost : s.kept = none) : (s.add symbol).kept = none := by
  obtain ⟨kept, leading⟩ := s
  obtain rfl : kept = none := lost
  cases leading with
  | some unit =>
      cases symbol with
      | char c => rfl
      | unit partner => rw [add_waiting, Option.map_none, ite_self]
  | none =>
      cases symbol with
      | char c => rfl
      | unit unit =>
          by_cases leading : IsLeading unit
          · rw [add_leading leading]
          by_cases trailing : IsTrailing unit
          · rw [add_trailing trailing]
          · rw [add_unit leading trailing, Option.map_none]

theorem close_foldl_lost {symbols : List Symbol} (lost : s.kept = none) :
    (symbols.foldl .add s).close = none := by
  induction symbols generalizing s with
  | nil =>
      rw [List.foldl_nil, OpenString.close, lost]
      split <;> rfl
  | cons symbol symbols ih => exact ih (kept_add lost)

/-- A leading code unit waits for its partner in vain if something else comes next. -/
theorem close_foldl_waiting {symbols : List Symbol} {kept : Option (List Char)} {unit : Nat}
    (alone : ∀ partner rest, symbols = .unit partner :: rest → ¬ IsTrailing partner) :
    (symbols.foldl OpenString.add { kept, leading := some unit }).close = none := by
  cases symbols with
  | nil => rfl
  | cons symbol rest =>
      rw [List.foldl_cons]
      refine close_foldl_lost ?_
      cases symbol with
      | char c => rfl
      | unit partner => rw [add_waiting, if_neg (alone partner rest rfl)]

theorem map_ofList_reverse_cons (c : Char) (kept : List Char) (text : Option (List Char)) :
    text.map (fun text => String.ofList ((c :: kept).reverse ++ text)) =
      (text.map (c :: ·)).map fun text => String.ofList (kept.reverse ++ text) := by
  simp [Function.comp_def]

/-- The text of a string is what its symbols stand for. The induction takes the code units of a pair
together. -/
theorem close_foldl (symbols : List Symbol) (kept : List Char) :
    (symbols.foldl OpenString.add { kept := some kept }).close =
      (decodeSymbols symbols).map fun text => String.ofList (kept.reverse ++ text) := by
  induction symbols using decodeSymbols.induct generalizing kept with
  | case1 => simp [OpenString.close, decodeSymbols]
  | case2 c symbols ih => exact (ih (c :: kept)).trans (map_ofList_reverse_cons c kept _)
  | case3 unit leading partner symbols trailing ih =>
      rw [List.foldl_cons, List.foldl_cons, add_leading leading, add_waiting, if_pos trailing,
        decodeSymbols_pair leading trailing, ← map_ofList_reverse_cons]
      exact ih _
  | case4 unit leading partner symbols alone =>
      have alone : ∀ other rest, Symbol.unit partner :: symbols = .unit other :: rest → ¬ IsTrailing other := by
        rintro other rest ⟨⟩
        exact alone
      rw [List.foldl_cons, add_leading leading, decodeSymbols_lone leading alone, close_foldl_waiting alone]
      rfl
  | case5 unit symbols leading alone =>
      have alone : ∀ other rest, symbols = .unit other :: rest → ¬ IsTrailing other :=
        fun other rest same => (alone other rest same).elim
      rw [List.foldl_cons, add_leading leading, decodeSymbols_lone leading alone, close_foldl_waiting alone]
      rfl
  | case6 unit symbols leading trailing =>
      rw [List.foldl_cons, add_trailing trailing, decodeSymbols_trailing leading trailing,
        close_foldl_lost rfl]
      rfl
  | case7 unit symbols leading trailing ih =>
      rw [List.foldl_cons, add_unit leading trailing, decodeSymbols_unit leading trailing, ← map_ofList_reverse_cons]
      exact ih _

/-- A spelled string is scanned as one token. -/
theorem scanFrom_string {text : Option String} (spelled : SpellsString text chars) :
    scanFrom .between (chars ++ rest) = (scanFrom .between rest).map (.string text :: ·) := by
  obtain @⟨symbols, body, spelled⟩ := spelled
  have closing : scanChar (.string (symbols.foldl .add {})) '"' =
      .ok ([.string ((decodeSymbols symbols).map String.ofList)], .between) := by
    rw [scanChar, if_pos rfl, close_foldl]
    rfl
  rw [List.cons_append, List.append_assoc, scanFrom_cons_nil (.string {}) rfl, scanFrom_symbols spelled]
  exact scanFrom_cons _ _ closing

/-- A character that ends a token is read as it would be after it. -/
theorem scanFrom_ending
    (step : scanChar mode c = (startToken c).map fun started => (token :: started.1, started.2)) :
    scanFrom mode (c :: rest) = (scanFrom .between (c :: rest)).map (token :: ·) := by
  cases started : startToken c with
  | error fault =>
      rw [started] at step
      have start : scanChar .between c = .error fault := started
      rw [scanFrom, scanFrom, step, start]
      rfl
  | ok parts =>
      obtain ⟨tokens, next⟩ := parts
      rw [started] at step
      have start : scanChar .between c = .ok (tokens, next) := started
      rw [scanFrom_cons (token :: tokens) next step, scanFrom_cons tokens next start]
      cases scanFrom next rest <;> rfl

/-- A word ends where it does not go on, and is then looked up. -/
theorem scanFrom_word {letters : List Char} (known : literals.lookup letters.reverse = some token)
    (apart : Text.StopsAt goesOn rest) :
    scanFrom (.word letters) rest = (scanFrom .between rest).map (token :: ·) := by
  cases rest with
  | nil =>
      rw [scanFrom, scanEnd, known]
      rfl
  | cons c rest =>
      have other : c.isAlpha = false := (Bool.or_eq_false_iff.1 (apart c rfl)).2
      refine scanFrom_ending ?_
      rw [scanChar, if_neg (by simp [other]), wordToken, known]
      rfl

theorem scanFrom_letters {letters : List Char} (all : ∀ c ∈ letters, c.isAlpha = true) :
    scanFrom (.word chars) (letters ++ rest) = scanFrom (.word (letters.reverse ++ chars)) rest := by
  induction letters generalizing chars with
  | nil => rfl
  | cons c letters ih =>
      obtain ⟨first, all⟩ := List.forall_mem_cons.1 all
      rw [List.cons_append, scanFrom_cons_nil (.word (c :: chars)), ih all]
      · simp
      · rw [scanChar, if_pos first]

/-- Each of the known words is scanned as its token. -/
theorem scanFrom_literal (letters : List Char) (start : startToken c = .ok ([], .word [c]))
    (all : letters.all Char.isAlpha = true) (known : literals.lookup (c :: letters) = some token)
    (apart : Text.StopsAt goesOn rest) :
    scanFrom .between (c :: letters ++ rest) = (scanFrom .between rest).map (token :: ·) := by
  rw [List.cons_append, scanFrom_start _ start, scanFrom_letters (List.all_eq_true.1 all)]
  exact scanFrom_word (by simpa using known) apart

/-- A number ends where it does not go on, if it is spelled as one. -/
theorem scanFrom_number (spelled : isNumber chars.reverse = true) (apart : Text.StopsAt goesOn rest) :
    scanFrom (.number chars) rest =
      (scanFrom .between rest).map (.number (String.ofList chars.reverse) :: ·) := by
  cases rest with
  | nil =>
      rw [scanFrom, scanEnd, if_pos spelled]
      rfl
  | cons c rest =>
      have other : isNumberChar c = false := (Bool.or_eq_false_iff.1 (apart c rfl)).1
      refine scanFrom_ending ?_
      rw [scanChar, if_neg (by simp [other]), numberToken, if_pos spelled]
      rfl

theorem scanFrom_numberChars (all : ∀ c ∈ digits, isNumberChar c = true) :
    scanFrom (.number chars) (digits ++ rest) = scanFrom (.number (digits.reverse ++ chars)) rest := by
  induction digits generalizing chars with
  | nil => rfl
  | cons c digits ih =>
      obtain ⟨first, all⟩ := List.forall_mem_cons.1 all
      rw [List.cons_append, scanFrom_cons_nil (.number (c :: chars)), ih all]
      · simp
      · rw [scanChar, if_pos first]

theorem isNumberChar_of_isDigit (isDigit : c.isDigit = true) : isNumberChar c = true := by
  simp [isNumberChar, isDigit]

theorem AreDigits.isNumberChar (all : AreDigits chars) : ∀ c ∈ chars, isNumberChar c = true :=
  fun c member => isNumberChar_of_isDigit (all.all c member)

theorem IsFraction.isNumberChar (isFraction : IsFraction chars) : ∀ c ∈ chars, isNumberChar c = true := by
  cases isFraction with
  | nothing => nofun
  | digits all => exact List.forall_mem_cons.2 ⟨rfl, all.isNumberChar⟩

theorem IsExponent.isNumberChar (isExponent : IsExponent chars) : ∀ c ∈ chars, isNumberChar c = true := by
  cases isExponent with
  | nothing => nofun
  | digits marked signed all =>
      refine List.forall_mem_cons.2 ⟨by rcases marked with rfl | rfl <;> rfl, ?_⟩
      refine List.forall_mem_append.2 ⟨?_, all.isNumberChar⟩
      rcases signed with rfl | rfl | rfl <;> simp [Json.isNumberChar]

/-- A number begins with a digit or a minus sign. -/
theorem SpellsNumber.exists_eq_cons (spelled : SpellsNumber chars) :
    ∃ first rest, chars = first :: rest ∧ (first = '-' ∨ first.isDigit = true) ∧
      ∀ c ∈ rest, Json.isNumberChar c = true := by
  obtain ⟨signed, isWhole, isFraction, isExponent⟩ := spelled
  obtain ⟨first, rest, rfl, all⟩ := isWhole.exists_eq_cons
  have after := List.forall_mem_append.2 ⟨isFraction.isNumberChar, isExponent.isNumberChar⟩
  rcases signed with rfl | rfl
  · refine ⟨first, _, rfl, .inr (all.all first List.mem_cons_self), ?_⟩
    exact List.forall_mem_append.2 ⟨(List.forall_mem_cons.1 all.isNumberChar).2, after⟩
  · refine ⟨'-', (first :: rest) ++ _, rfl, .inl rfl, ?_⟩
    exact List.forall_mem_append.2 ⟨all.isNumberChar, after⟩

theorem startToken_number (first : c = '-' ∨ c.isDigit = true) :
    startToken c = .ok ([], .number [c]) := by
  rcases first with rfl | digit
  · rfl
  · have other (d : Char) (apart : d.isDigit = false) : (c == d) = false := by
      rw [beq_eq_false_iff_ne]
      rintro rfl
      rw [digit] at apart
      cases apart
    have quote : c ≠ '"' := beq_eq_false_iff_ne.1 (other '"' rfl)
    rw [startToken, if_neg (by simp [isGap, other]), if_neg quote,
      if_pos (by simp [isNumberChar_of_isDigit digit, bne, other])]

/-- A punctuation mark is a token of its own. -/
theorem scanFrom_mark (mark : startToken c = .ok ([token], .between)) :
    scanFrom .between (c :: rest) = (scanFrom .between rest).map (token :: ·) :=
  scanFrom_cons [token] .between mark

/-- A token is found where a text begins with one of its spellings. -/
theorem scanFrom_spelled (spelled : token.Spelled chars)
    (apart : token.isOpen = true → Text.StopsAt goesOn rest) :
    scanFrom .between (chars ++ rest) = (scanFrom .between rest).map (token :: ·) := by
  cases token with
  | openBrace => exact spelled ▸ scanFrom_mark rfl
  | closeBrace => exact spelled ▸ scanFrom_mark rfl
  | openBracket => exact spelled ▸ scanFrom_mark rfl
  | closeBracket => exact spelled ▸ scanFrom_mark rfl
  | comma => exact spelled ▸ scanFrom_mark rfl
  | colon => exact spelled ▸ scanFrom_mark rfl
  | null => exact spelled ▸ scanFrom_literal ['u', 'l', 'l'] rfl rfl rfl (apart rfl)
  | bool value =>
      cases value with
      | true => exact spelled ▸ scanFrom_literal ['r', 'u', 'e'] rfl rfl rfl (apart rfl)
      | false => exact spelled ▸ scanFrom_literal ['a', 'l', 's', 'e'] rfl rfl rfl (apart rfl)
  | number spelling =>
      obtain ⟨spelled, rfl⟩ := spelled
      obtain ⟨first, digits, rfl, start, all⟩ := spelled.exists_eq_cons
      have whole : (digits.reverse ++ [first]).reverse = first :: digits := by simp
      have number := @scanFrom_number (digits.reverse ++ [first]) rest
        (by rw [whole]; exact isNumber_iff.2 spelled) (apart rfl)
      rw [whole] at number
      rw [List.cons_append, scanFrom_start _ (startToken_number start), scanFrom_numberChars all, number]
  | string text => exact scanFrom_string spelled

/-- The scan of a text finds the tokens it is made of. -/
theorem scanFrom_of_spells (spells : Spells tokens chars) : scanFrom .between chars = .ok tokens := by
  induction spells with
  | nil => rfl
  | gap blank _ ih =>
      rw [scanFrom_start .between (by rw [startToken, if_pos blank]), ih]
  | token spelled apart _ ih =>
      rw [scanFrom_spelled spelled apart, ih]
      rfl

end VersionMatrix.Json
