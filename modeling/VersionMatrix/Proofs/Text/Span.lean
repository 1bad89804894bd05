import Mathlib.Data.List.TakeWhile

/-! Where a run of characters of one kind ends in a text. -/
namespace VersionMatrix.Text

variable {p : Char → Bool} {c : Char} {run rest : List Char}

/-- A text does not begin with a character of this kind. -/
def StopsAt (p : Char → Bool) (rest : List Char) : Prop :=
  ∀ c, rest.head? = some c → p c = false

theorem stopsAt_nil : StopsAt p [] := nofun

theorem stopsAt_cons (other : p c = false) : StopsAt p (c :: rest) := by
  intro d first
  rwa [← Option.some.inj first]

theorem StopsAt.append (stops : StopsAt p rest) (others : ∀ c ∈ run, p c = false) :
    StopsAt p (run ++ rest) := by
  cases run with
  | nil => exact stops
  | cons c run => exact stopsAt_cons (others c List.mem_cons_self)

theorem stopsAt_dropWhile (p : Char → Bool) (text : List Char) : StopsAt p (text.dropWhile p) := by
  intro c first
  have stops := List.head?_dropWhile_not p text
  rwa [first] at stops

/-- A run of characters is taken up to where it stops. -/
theorem StopsAt.takeWhile_append (stops : StopsAt p rest) (all : ∀ c ∈ run, p c = true) :
    (run ++ rest).takeWhile p = run := by
  rw [List.takeWhile_append_of_pos all]
  cases rest with
  | nil => exact List.append_nil run
  | cons c rest => rw [List.takeWhile_cons_of_neg (by simp [stops c rfl]), List.append_nil]

/-- A run of characters is dropped up to where it stops. -/
theorem StopsAt.dropWhile_append (stops : StopsAt p rest) (all : ∀ c ∈ run, p c = true) :
    (run ++ rest).dropWhile p = rest := by
  rw [List.dropWhile_append_of_pos all]
  cases rest with
  | nil => rfl
  | cons c rest => rw [List.dropWhile_cons_of_neg (by simp [stops c rfl])]

/-- There is only one place where such a run ends. -/
theorem StopsAt.append_inj {run' rest' : List Char} (stops : StopsAt p rest) (stops' : StopsAt p rest')
    (all : ∀ c ∈ run, p c = true) (all' : ∀ c ∈ run', p c = true)
    (same : run ++ rest = run' ++ rest') : run = run' ∧ rest = rest' := by
  refine ⟨?_, ?_⟩
  · rw [← stops.takeWhile_append all, same, stops'.takeWhile_append all']
  · rw [← stops.dropWhile_append all, same, stops'.dropWhile_append all']

end VersionMatrix.Text
