import VersionMatrix.Version.Sort
import VersionMatrix.Proofs.Version.Precedence

/-! Sorted version texts: the versions among them come first and in their order, which leaves no choice,
and the other texts follow as they were given. -/
namespace VersionMatrix.Version

open Std

variable {a b : String} {texts others : List String}

def isVersion (text : String) : Bool := (parse? text).isSome

/-- Both texts are versions that the standard allows, and the first one does not come after the second. -/
def InOrder (a b : String) : Prop :=
  ∃ v w : Version, v.IsStrict ∧ w.IsStrict ∧ v.write = a ∧ w.write = b ∧ (v = w ∨ v.Before w)

/-- A text is a version exactly if a strict version is written so. -/
theorem isVersion_iff : isVersion a = true ↔ ∃ v : Version, v.IsStrict ∧ v.write = a := by
  rw [isVersion, Option.isSome_iff_exists]
  exact exists_congr fun v => parse?_eq_some_iff

instance : TransCmp compareTexts where
  eq_swap {a b} := by
    cases first : parse? a <;> cases second : parse? b <;> simp only [compareTexts, first, second]
    · rfl
    · rfl
    · rfl
    · exact OrientedCmp.eq_swap
  isLE_trans {a b c} := by
    cases first : parse? a <;> cases second : parse? b <;> cases third : parse? c <;>
      simp only [compareTexts, first, second, third]
    all_goals first | exact TransCmp.isLE_trans | simp

/-- Any two texts can be compared. -/
theorem isLE_total (a b : String) :
    (compareTexts a b).isLE = true ∨ (compareTexts b a).isLE = true := by
  have swapped : compareTexts b a = (compareTexts a b).swap := OrientedCmp.eq_swap
  rw [swapped]
  cases compareTexts a b <;> simp

/-- Two versions rank equal only if they are the same text. -/
theorem eq_of_compareTexts (first : isVersion a = true) (second : isVersion b = true)
    (same : compareTexts a b = .eq) : a = b := by
  obtain ⟨v, read⟩ := Option.isSome_iff_exists.1 first
  obtain ⟨w, read'⟩ := Option.isSome_iff_exists.1 second
  rw [compareTexts, read, read'] at same
  have equal : order v w = .eq := same
  obtain rfl : v = w := LawfulEqCmp.eq_of_compare equal
  exact eq_of_parse? read read'

/-- Only versions come before a version. -/
theorem isVersion_of_isLE (ahead : (compareTexts a b).isLE = true) (second : isVersion b = true) :
    isVersion a = true := by
  obtain ⟨w, read⟩ := Option.isSome_iff_exists.1 second
  cases first : parse? a with
  | none => simp [compareTexts, first, read] at ahead
  | some v => rw [isVersion, first, Option.isSome_some]

/-- Among versions the order of texts is that of precedence. -/
theorem inOrder_of_isLE (first : isVersion a = true) (second : isVersion b = true)
    (ahead : (compareTexts a b).isLE = true) : InOrder a b := by
  obtain ⟨v, read⟩ := Option.isSome_iff_exists.1 first
  obtain ⟨w, read'⟩ := Option.isSome_iff_exists.1 second
  obtain ⟨strict, written⟩ := parse?_eq_some_iff.1 read
  obtain ⟨strict', written'⟩ := parse?_eq_some_iff.1 read'
  refine ⟨v, w, strict, strict', written, written', ?_⟩
  rw [compareTexts, read, read'] at ahead
  have ranked : (order v w).isLE = true := ahead
  rcases Ordering.isLE_iff_eq_lt_or_eq_eq.1 ranked with less | same
  · exact .inr ((order_eq_lt_iff strict strict').1 less)
  · exact .inl (LawfulEqCmp.eq_of_compare same)

/-- Sorting loses no text and adds none. -/
theorem sortTexts_perm (texts : List String) : (sortTexts texts).Perm texts :=
  List.mergeSort_perm _ _

/-- Sorted texts are in order. -/
theorem pairwise_sortTexts (texts : List String) :
    (sortTexts texts).Pairwise fun a b => (compareTexts a b).isLE = true :=
  List.pairwise_mergeSort (fun _ _ _ => TransCmp.isLE_trans)
    (fun a b => Bool.or_eq_true _ _ ▸ isLE_total a b) texts

/-- In an order that puts what satisfies `p` first, a sorted list falls into two parts. -/
theorem filter_append_filter {p : String → Bool} {before : String → String → Prop}
    (ahead : ∀ a b, before a b → p b = true → p a = true) (sorted : texts.Pairwise before) :
    texts.filter p ++ texts.filter (!p ·) = texts := by
  induction texts with
  | nil => rfl
  | cons first rest ih =>
      obtain ⟨least, sorted⟩ := List.pairwise_cons.1 sorted
      cases kind : p first with
      | true => simp [kind, ih sorted]
      | false =>
          have none : rest.filter p = [] := by
            rw [List.filter_eq_nil_iff]
            intro other member holds
            rw [ahead first other (least other member) holds] at kind
            cases kind
          have all : rest.filter (!p ·) = rest := by simpa [none] using ih sorted
          simp [kind, none, all]

/-- The texts that are no versions keep their order. -/
theorem filter_sortTexts_other (texts : List String) :
    (sortTexts texts).filter (!isVersion ·) = texts.filter (!isVersion ·) := by
  have alike : (texts.filter (!isVersion ·)).Pairwise fun a b => (compareTexts a b).isLE = true := by
    refine List.pairwise_of_forall_mem_list fun a member b member' => ?_
    have neither {text : String} (member : text ∈ texts.filter (!isVersion ·)) : parse? text = none := by
      simpa [isVersion] using (List.mem_filter.1 member).2
    simp [compareTexts, neither member, neither member']
  have kept : (texts.filter (!isVersion ·)).Sublist (sortTexts texts) :=
    List.sublist_mergeSort (fun _ _ _ => TransCmp.isLE_trans)
      (fun a b => Bool.or_eq_true _ _ ▸ isLE_total a b) alike List.filter_sublist
  have within := kept.filter (!isVersion ·)
  rw [List.filter_filter] at within
  simp only [Bool.and_self] at within
  exact (within.eq_of_length ((sortTexts_perm texts).filter _).length_eq.symm).symm

/-- Sorting puts the versions in front and leaves the other texts as they were. -/
theorem sortTexts_eq_append (texts : List String) :
    sortTexts texts = (sortTexts texts).filter isVersion ++ texts.filter (!isVersion ·) := by
  rw [← filter_sortTexts_other]
  exact (filter_append_filter (p := isVersion) (fun _ _ ahead => isVersion_of_isLE ahead)
    (pairwise_sortTexts texts)).symm

/-- The versions among sorted texts are in their order. -/
theorem pairwise_filter_sortTexts (texts : List String) :
    ((sortTexts texts).filter isVersion).Pairwise InOrder := by
  refine List.Pairwise.imp_of_mem (fun member member' ahead => ?_)
    ((pairwise_sortTexts texts).filter isVersion)
  exact inOrder_of_isLE (List.mem_filter.1 member).2 (List.mem_filter.1 member').2 ahead

/-- Sorting is a permutation that puts the versions first and in their order, and the other texts after
them as they were given; a second time it changes nothing. The comparison it goes by is reflexive,
transitive and total, for whatever texts. -/
theorem sortTexts_sorts (texts : List String) :
    (sortTexts texts).Perm texts ∧
    (∀ a, isVersion a = true ↔ ∃ v : Version, v.IsStrict ∧ v.write = a) ∧
    (∃ versions, sortTexts texts = versions ++ texts.filter (!isVersion ·) ∧
      versions.Perm (texts.filter isVersion) ∧ versions.Pairwise InOrder) ∧
    (∀ a, compareTexts a a = .eq) ∧
    (∀ a b, compareTexts b a = (compareTexts a b).swap) ∧
    (∀ a b, (compareTexts a b).isLE = true ∨ (compareTexts b a).isLE = true) ∧
    (∀ a b c, (compareTexts a b).isLE = true → (compareTexts b c).isLE = true →
      (compareTexts a c).isLE = true) ∧
    sortTexts (sortTexts texts) = sortTexts texts :=
  ⟨sortTexts_perm texts, fun _ => isVersion_iff,
    ⟨_, sortTexts_eq_append texts, (sortTexts_perm texts).filter _, pairwise_filter_sortTexts texts⟩,
    fun _ => ReflCmp.compare_self, fun _ _ => OrientedCmp.eq_swap, isLE_total,
    fun _ _ _ => TransCmp.isLE_trans, List.mergeSort_of_pairwise (pairwise_sortTexts texts)⟩

example :
    let sorted := ["1.0.0-rc.9", "1.0.0-rc.10", "1.0.0", "1.0.0+1", "1.0.0+01", "5.9.0", "5.10.1", "lts",
      "18446744073709551616.0.0"]
    sortTexts sorted = sorted :=
  List.mergeSort_of_pairwise (by decide +kernel)

/-- In whatever order texts are given, the versions among them come out in the same sequence, because two
versions rank equal only if they are the same text. -/
theorem sortTexts_versions (same : texts.Perm others) :
    (∃ versions, sortTexts texts = versions ++ texts.filter (!isVersion ·) ∧
      sortTexts others = versions ++ others.filter (!isVersion ·)) ∧
    ∀ a b, isVersion a = true → isVersion b = true → (compareTexts a b = .eq ↔ a = b) := by
  refine ⟨⟨_, sortTexts_eq_append texts, ?_⟩, fun a b first second =>
    ⟨eq_of_compareTexts first second, fun equal => equal ▸ ReflCmp.compare_self⟩⟩
  have perm : ((sortTexts texts).filter isVersion).Perm ((sortTexts others).filter isVersion) :=
    ((sortTexts_perm texts).trans (same.trans (sortTexts_perm others).symm)).filter isVersion
  rw [perm.eq_of_pairwise (fun a b member member' ahead behind => ?_)
    ((pairwise_sortTexts texts).filter isVersion) ((pairwise_sortTexts others).filter isVersion)]
  · exact sortTexts_eq_append others
  · exact eq_of_compareTexts (List.mem_filter.1 member).2 (List.mem_filter.1 member').2
      (OrientedCmp.isLE_antisymm ahead behind)

theorem sortTexts_versions_reversed :
    ["1.0.0+1", "lts", "1.0.0", "x", "1.0.0+01"].Perm ["1.0.0+01", "x", "1.0.0", "lts", "1.0.0+1"] ∧
    ∃ versions, sortTexts ["1.0.0+1", "lts", "1.0.0", "x", "1.0.0+01"] = versions ++ ["lts", "x"] ∧
      sortTexts ["1.0.0+01", "x", "1.0.0", "lts", "1.0.0+1"] = versions ++ ["x", "lts"] := by
  have reversed : ["1.0.0+1", "lts", "1.0.0", "x", "1.0.0+01"].Perm
      ["1.0.0+01", "x", "1.0.0", "lts", "1.0.0+1"] := (List.reverse_perm _).symm
  have kept : ["1.0.0+1", "lts", "1.0.0", "x", "1.0.0+01"].filter (!isVersion ·) = ["lts", "x"] := by
    decide +kernel
  have kept' : ["1.0.0+01", "x", "1.0.0", "lts", "1.0.0+1"].filter (!isVersion ·) = ["x", "lts"] := by
    decide +kernel
  rw [← kept, ← kept']
  exact ⟨reversed, (sortTexts_versions reversed).1⟩

end VersionMatrix.Version
