import VersionMatrix.Proofs.Version.Notation

/-! The order of versions: it is a total order, and as the standard words it. Numeric identifiers are
compared by their characters, which amounts to comparing them by value. -/
namespace VersionMatrix.Version

open Std

variable {a b : String} {as bs : List String} {v w : Version}

abbrev number (identifier : String) : Nat := Text.decimal identifier.toList

/-- Numeric identifiers come first, in an order of their own; the others go by their characters. -/
inductive IdentifierBefore (numbers : String → String → Prop) (a b : String) : Prop
  | number (first : isNumeric a = true) (second : isNumeric b = true) (less : numbers a b)
  | kind (first : isNumeric a = true) (second : isNumeric b = false)
  | text (first : isNumeric a = false) (second : isNumeric b = false) (less : a < b)

/-- The order of pre-release identifiers: numeric ones by value. -/
def PreReleaseBefore : String → String → Prop :=
  IdentifierBefore fun a b => number a < number b

/-- The order of build identifiers: numeric ones by value, and fewer leading zeros before more. -/
def BuildBefore : String → String → Prop :=
  IdentifierBefore fun a b => number a < number b ∨ number a = number b ∧ a.length < b.length

def core (v : Version) : Nat × Nat × Nat := (v.major, v.minor, v.patch)

/-- Which of two versions comes first. A pre-release comes before its release, and of two lists of
identifiers the first difference decides; a list comes before its extensions. -/
inductive Before (v w : Version) : Prop
  | major (less : v.major < w.major)
  | minor (major : v.major = w.major) (less : v.minor < w.minor)
  | patch (major : v.major = w.major) (minor : v.minor = w.minor) (less : v.patch < w.patch)
  | release (core : v.core = w.core) (unfinished : v.preRelease ≠ []) (finished : w.preRelease = [])
  | preRelease (core : v.core = w.core) (unfinished : v.preRelease ≠ [])
      (less : List.Lex PreReleaseBefore v.preRelease w.preRelease)
  | build (core : v.core = w.core) (same : v.preRelease = w.preRelease)
      (less : List.Lex BuildBefore v.build w.build)

theorem compare_eq_lt_iff : compare a b = .lt ↔ a < b := compareOfLessAndEq_eq_lt

/-- The comparison of identifiers of two kinds, with a comparison of the numeric ones. -/
def compareByKind (numbers : String → String → Ordering) (a b : String) : Ordering :=
  match isNumeric a, isNumeric b with
  | true, true => numbers a b
  | true, false => .lt
  | false, true => .gt
  | false, false => compare a b

section

variable {numbers : String → String → Ordering}

instance [TransCmp numbers] : TransCmp (compareByKind numbers) where
  eq_swap {a b} := by
    cases first : isNumeric a <;> cases second : isNumeric b <;> simp only [compareByKind, first, second]
    · exact OrientedCmp.eq_swap
    · rfl
    · rfl
    · exact OrientedCmp.eq_swap
  isLE_trans {a b c} := by
    cases first : isNumeric a <;> cases second : isNumeric b <;> cases third : isNumeric c <;>
      simp only [compareByKind, first, second, third]
    all_goals first | exact TransCmp.isLE_trans | simp

/-- Identifiers that rank equally are the same, if numbers that rank equally are. -/
theorem eq_of_compareByKind (lawful : numbers a b = .eq → a = b)
    (same : compareByKind numbers a b = .eq) : a = b := by
  cases first : isNumeric a <;> cases second : isNumeric b <;>
    simp only [compareByKind, first, second, reduceCtorEq] at same
  · exact LawfulEqCmp.eq_of_compare same
  · exact lawful same

/-- One identifier ranks before another by its kind and, within a kind, by the order of that
kind. -/
theorem compareByKind_eq_lt_iff {before : String → String → Prop}
    (agree : isNumeric a = true → isNumeric b = true → (numbers a b = .lt ↔ before a b)) :
    compareByKind numbers a b = .lt ↔ IdentifierBefore before a b := by
  constructor
  · intro less
    cases first : isNumeric a <;> cases second : isNumeric b <;>
      simp only [compareByKind, first, second, reduceCtorEq] at less
    · exact .text first second (compare_eq_lt_iff.1 less)
    · exact .kind first second
    · exact .number first second ((agree first second).1 less)
  · rintro (⟨first, second, less⟩ | ⟨first, second⟩ | ⟨first, second, less⟩) <;>
      simp only [compareByKind, first, second]
    · exact (agree first second).2 less
    · exact compare_eq_lt_iff.2 less

end

/-- The comparison for a pre-release is the one by kind, with numbers by their length and then their
digits. -/
theorem comparePreReleaseIdentifiers_eq :
    comparePreReleaseIdentifiers = compareByKind (compareLex (compareOn String.length) compare) := by
  funext a b
  rfl

/-- The comparison for a build is the one by kind, with numbers by their value and then their
leading zeros. -/
theorem compareBuildIdentifiers_eq :
    compareBuildIdentifiers = compareByKind
      (compareLex (compareLex (compareOn fun identifier => (significant identifier).length)
        (compareOn significant)) (compareOn String.length)) := by
  funext a b
  rfl

instance : TransCmp comparePreReleaseIdentifiers := by
  rw [comparePreReleaseIdentifiers_eq]
  infer_instance

instance : TransCmp compareBuildIdentifiers := by
  rw [compareBuildIdentifiers_eq]
  infer_instance

instance : LawfulEqCmp comparePreReleaseIdentifiers where
  eq_of_compare same := by
    rw [comparePreReleaseIdentifiers_eq] at same
    refine eq_of_compareByKind (fun same => ?_) same
    exact LawfulEqCmp.eq_of_compare (compareLex_eq_eq.1 same).2

/-- An identifier is its significant part after some zeros. -/
theorem exists_replicate_significant (identifier : String) :
    ∃ zeros, identifier.toList = List.replicate zeros '0' ++ (significant identifier).toList := by
  refine ⟨(identifier.toList.takeWhile (· == '0')).length, ?_⟩
  rw [significant, String.toList_ofList, ← List.eq_replicate_of_mem fun c member => ?_,
    List.takeWhile_append_dropWhile]
  exact eq_of_beq (List.all_eq_true.1 List.all_takeWhile c member)

/-- A numeral is known by its significant digits and its length. -/
theorem eq_of_significant (same : significant a = significant b) (length : a.length = b.length) :
    a = b := by
  obtain ⟨zeros, whole⟩ := exists_replicate_significant a
  obtain ⟨zeros', whole'⟩ := exists_replicate_significant b
  rw [← String.length_toList, ← String.length_toList, whole, whole', same] at length
  obtain rfl : zeros = zeros' := by simpa using length
  rw [← String.toList_inj, whole, whole', same]

instance : LawfulEqCmp compareBuildIdentifiers where
  eq_of_compare same := by
    rw [compareBuildIdentifiers_eq] at same
    refine eq_of_compareByKind (fun same => ?_) same
    obtain ⟨parts, lengths⟩ := compareLex_eq_eq.1 same
    exact eq_of_significant (LawfulEqCmp.eq_of_compare (compareLex_eq_eq.1 parts).2)
      (LawfulEqCmp.eq_of_compare lengths)

/-- Numerals of which the longer one has no leading zero are in the order of their values. -/
theorem compare_length_then_compare (first : isNumeric a = true) (second : isNumeric b = true)
    (plain : b.length < a.length → a.toList.head? ≠ some '0')
    (plain' : a.length < b.length → b.toList.head? ≠ some '0') :
    (compare a.length b.length).then (compare a b) = compare (number a) (number b) := by
  have all := List.all_eq_true.1 first
  have all' := List.all_eq_true.1 second
  have lengths (s : String) : s.toList.length = s.length := String.length_toList
  rcases Nat.lt_trichotomy a.length b.length with shorter | same | longer
  · rw [Nat.compare_eq_lt.2 shorter, Nat.compare_eq_lt.2, Ordering.lt_then]
    exact Text.decimal_lt_of_length_lt all all' (plain' shorter) (by simpa only [lengths] using shorter)
  · rw [same, Nat.compare_eq_eq.2 rfl, Ordering.eq_then]
    have same : a.toList.length = b.toList.length := by simpa only [lengths] using same
    have less := (Text.decimal_lt_iff all all' same).trans String.lt_iff.symm
    have more := (Text.decimal_lt_iff all' all same.symm).trans String.lt_iff.symm
    cases compared : compare a b with
    | lt => exact (Nat.compare_eq_lt.2 (less.2 (compare_eq_lt_iff.1 compared))).symm
    | eq => rw [LawfulEqCmp.eq_of_compare compared, Nat.compare_eq_eq.2 rfl]
    | gt =>
        have ahead := compare_eq_lt_iff.1 (OrientedCmp.lt_of_gt compared)
        exact (Nat.compare_eq_gt.2 (more.2 ahead)).symm
  · rw [Nat.compare_eq_gt.2 longer, Nat.compare_eq_gt.2, Ordering.gt_then]
    exact Text.decimal_lt_of_length_lt all' all (plain longer) (by simpa only [lengths] using longer)

/-- The identifiers of a pre-release rank as precedence says: numbers by value, texts by their
characters, and numbers first. -/
theorem comparePreReleaseIdentifiers_eq_lt_iff (nonempty : a ≠ "") (nonempty' : b ≠ "")
    (plain : IsPlain a) (plain' : IsPlain b) :
    comparePreReleaseIdentifiers a b = .lt ↔ PreReleaseBefore a b := by
  rw [comparePreReleaseIdentifiers_eq, PreReleaseBefore]
  refine compareByKind_eq_lt_iff fun first second => ?_
  have plainly {a b : String} (nonempty : a ≠ "") (plain' : IsPlain b) (second : isNumeric b = true)
      (shorter : a.length < b.length) : b.toList.head? ≠ some '0' := by
    intro zero
    rw [plain' second zero, Nat.lt_one_iff] at shorter
    exact nonempty (String.length_eq_zero_iff.1 shorter)
  rw [compareLex, compareOn, compare_length_then_compare first second
    (plainly nonempty' plain first) (plainly nonempty plain' second), Nat.compare_eq_lt]

theorem isNumeric_significant (numeric : isNumeric a = true) : isNumeric (significant a) = true := by
  rw [isNumeric, significant, String.toList_ofList, List.all_eq_true]
  exact fun c member => List.all_eq_true.1 numeric c ((List.dropWhile_sublist _).subset member)

/-- Leading zeros do not change the value of a numeral. -/
theorem number_significant (a : String) : number (significant a) = number a := by
  obtain ⟨zeros, whole⟩ := exists_replicate_significant a
  rw [number, number, whole, Text.decimal, Text.decimal, Nat.ofDigitChars_append,
    Nat.ofDigitChars_replicate_zero, Nat.mul_zero]

theorem head?_significant (a : String) : (significant a).toList.head? ≠ some '0' := by
  rw [significant, String.toList_ofList]
  intro zero
  cases Text.stopsAt_dropWhile (· == '0') a.toList '0' zero

/-- The identifiers of a build rank in the same way, with numerals of equal value by their
length. -/
theorem compareBuildIdentifiers_eq_lt_iff : compareBuildIdentifiers a b = .lt ↔ BuildBefore a b := by
  rw [compareBuildIdentifiers_eq, BuildBefore]
  refine compareByKind_eq_lt_iff fun first second => ?_
  have values := compare_length_then_compare (isNumeric_significant first) (isNumeric_significant second)
    (fun _ => head?_significant a) fun _ => head?_significant b
  rw [number_significant, number_significant] at values
  rw [compareLex, compareLex, compareOn, compareOn, compareOn, values, Ordering.then_eq_lt,
    Nat.compare_eq_lt, Nat.compare_eq_eq, Nat.compare_eq_lt]

/-- Lists of identifiers are compared from left to right. -/
theorem compareLists_eq (order : String → String → Ordering) :
    compareLists order = List.compareLex order := by
  funext as bs
  induction as generalizing bs with
  | nil => cases bs <;> rfl
  | cons a as ih =>
      cases bs with
      | nil => rfl
      | cons b bs => rw [compareLists, List.compareLex_cons_cons, ih]

/-- A list of identifiers ranks before another by the first place where they differ, or as the start
of it. -/
theorem compareLists_eq_lt_iff (order : String → String → Ordering) [LawfulEqCmp order]
    {before : String → String → Prop} (agree : ∀ a ∈ as, ∀ b ∈ bs, (order a b = .lt ↔ before a b)) :
    compareLists order as bs = .lt ↔ List.Lex before as bs := by
  induction as generalizing bs with
  | nil => cases bs <;> simp [compareLists]
  | cons a as ih =>
      cases bs with
      | nil => simp [compareLists]
      | cons b bs =>
          rw [compareLists, Ordering.then_eq_lt, List.cons_lex_cons_iff, LawfulEqCmp.compare_eq_iff_eq,
            agree a List.mem_cons_self b List.mem_cons_self,
            ih fun a member b member' =>
              agree a (List.mem_cons_of_mem _ member) b (List.mem_cons_of_mem _ member')]

/-- A version without a pre-release comes after all that have one. -/
theorem comparePreReleases_eq :
    comparePreReleases =
      compareLex (compareOn List.isEmpty) (compareLists comparePreReleaseIdentifiers) := by
  funext as bs
  cases as <;> cases bs <;> rfl

instance : TransCmp comparePreReleases := by
  rw [comparePreReleases_eq, compareLists_eq]
  infer_instance

instance : LawfulEqCmp comparePreReleases where
  eq_of_compare same := by
    rw [comparePreReleases_eq, compareLists_eq] at same
    exact LawfulEqCmp.eq_of_compare (compareLex_eq_eq.1 same).2

theorem transCmp_on {α β : Type} (cmp : α → α → Ordering) [TransCmp cmp] (f : β → α) :
    TransCmp fun a b => cmp (f a) (f b) where
  eq_swap := OrientedCmp.eq_swap
  isLE_trans := TransCmp.isLE_trans

/-- Versions are compared by their three numbers, then by pre-release and then by build, each where
all before are the same. -/
theorem order_eq :
    order = compareLex (compareLex (compareLex (compareLex (compareOn major) (compareOn minor))
      (compareOn patch)) fun v w => comparePreReleases v.preRelease w.preRelease)
        fun v w => compareLists compareBuildIdentifiers v.build w.build := rfl

instance : TransCmp order := by
  have preReleases := transCmp_on comparePreReleases preRelease
  have builds := transCmp_on (List.compareLex compareBuildIdentifiers) build
  rw [order_eq, compareLists_eq]
  infer_instance

instance : LawfulEqCmp order where
  eq_of_compare {v w} same := by
    rw [order, compareLists_eq] at same
    simp only [Ordering.then_eq_eq, LawfulEqCmp.compare_eq_iff_eq] at same
    obtain ⟨⟨⟨⟨major, minor⟩, patch⟩, pre⟩, build⟩ := same
    cases v
    cases w
    simp_all

/-- One pre-release ranks before another exactly if it is one, and the other is the release itself
or has identifiers that rank higher. -/
theorem comparePreReleases_eq_lt_iff
    (proper : ∀ identifier ∈ as, IsIdentifier identifier ∧ IsPlain identifier)
    (proper' : ∀ identifier ∈ bs, IsIdentifier identifier ∧ IsPlain identifier) :
    comparePreReleases as bs = .lt ↔
      as ≠ [] ∧ (bs = [] ∨ List.Lex PreReleaseBefore as bs) := by
  have lists := compareLists_eq_lt_iff comparePreReleaseIdentifiers fun a member b member' =>
    comparePreReleaseIdentifiers_eq_lt_iff (proper a member).1.nonempty (proper' b member').1.nonempty
      (proper a member).2 (proper' b member').2
  cases as with
  | nil => cases bs <;> simp [comparePreReleases]
  | cons a as =>
      cases bs with
      | nil => simp [comparePreReleases]
      | cons b bs => simp [comparePreReleases, lists]

/-- The comparison of versions is the order of the standard, with build metadata as the last resort. -/
theorem order_eq_lt_iff (strict : v.IsStrict) (strict' : w.IsStrict) : order v w = .lt ↔ v.Before w := by
  have builds : compareLists compareBuildIdentifiers v.build w.build = .lt ↔
      List.Lex BuildBefore v.build w.build :=
    compareLists_eq_lt_iff _ fun _ _ _ _ => compareBuildIdentifiers_eq_lt_iff
  rw [order]
  simp only [Ordering.then_eq_lt, Ordering.then_eq_eq, LawfulEqCmp.compare_eq_iff_eq, Nat.compare_eq_lt,
    comparePreReleases_eq_lt_iff strict.preRelease strict'.preRelease, builds]
  constructor
  · rintro ((((less | ⟨major, less⟩) | ⟨⟨major, minor⟩, less⟩) |
      ⟨⟨⟨major, minor⟩, patch⟩, unfinished, finished | less⟩) | ⟨⟨⟨⟨major, minor⟩, patch⟩, same⟩, less⟩)
    · exact .major less
    · exact .minor major less
    · exact .patch major minor less
    · exact .release (by simp [core, major, minor, patch]) unfinished finished
    · exact .preRelease (by simp [core, major, minor, patch]) unfinished less
    · exact .build (by simp [core, major, minor, patch]) same less
  · rintro (less | ⟨major, less⟩ | ⟨major, minor, less⟩ | ⟨same, unfinished, finished⟩ |
      ⟨same, unfinished, less⟩ | ⟨same, pre, less⟩)
    · exact .inl (.inl (.inl (.inl less)))
    · exact .inl (.inl (.inl (.inr ⟨major, less⟩)))
    · exact .inl (.inl (.inr ⟨⟨major, minor⟩, less⟩))
    all_goals
      simp only [core, Prod.mk.injEq] at same
      obtain ⟨major, minor, patch⟩ := same
    · exact .inl (.inr ⟨⟨⟨major, minor⟩, patch⟩, unfinished, .inl finished⟩)
    · exact .inl (.inr ⟨⟨⟨major, minor⟩, patch⟩, unfinished, .inr less⟩)
    · exact .inr ⟨⟨⟨⟨major, minor⟩, patch⟩, pre⟩, less⟩

end VersionMatrix.Version
