import Mathlib.Data.List.TakeWhile
import MicroBench.Json.Space
import MicroBench.Text.Blank

/-! What the ends of a text have to be like for it to be what is left of another when the
white space around it is taken off. -/
namespace MicroBench.Text

open Json

variable {text t : List Char}

/-- What is left of a text without the white space at its ends. -/
structure Stripped (text t : List Char) : Prop where
  between : ∃ before after, (∀ c ∈ before, isBlank c = true) ∧ (∀ c ∈ after, isBlank c = true) ∧
    text = before ++ (t ++ after)
  first : ∀ c ∈ t.head?, isBlank c = false
  last : ∀ c ∈ t.getLast?, isBlank c = false

theorem dropWhile_of_head (first : ∀ c ∈ text.head?, isBlank c = false) :
    text.dropWhile isBlank = text := by
  cases text with
  | nil => rfl
  | cons c text =>
    rw [List.dropWhile_cons, first c rfl]
    rfl

theorem head_dropWhile (text : List Char) :
    ∀ c ∈ (text.dropWhile isBlank).head?, isBlank c = false := by
  intro c member
  have ink := List.head?_dropWhile_not isBlank text
  rw [Option.mem_def.1 member] at ink
  simpa using ink

theorem trimmed_of_stripped (stripped : Stripped text t) : trimmed text = t := by
  obtain ⟨⟨before, after, blank, blank', rfl⟩, first, last⟩ := stripped
  rw [trimmed, List.dropWhile_append_of_pos blank]
  cases t with
  | nil =>
    rw [List.nil_append, List.dropWhile_eq_nil_iff.2 blank']
    rfl
  | cons c t =>
    have front : (c :: t ++ after).dropWhile isBlank = c :: t ++ after := dropWhile_of_head first
    have back : (c :: t).reverse.dropWhile isBlank = (c :: t).reverse :=
      dropWhile_of_head (List.head?_reverse ▸ last)
    rw [front, List.reverse_append, List.dropWhile_append_of_pos (by simpa using blank'), back,
      List.reverse_reverse]

example : trimmed [' ', 'a', ' ', 'b', '\n'] = ['a', ' ', 'b'] := by decide

theorem stripped_trimmed (text : List Char) : Stripped text (trimmed text) := by
  have front : text = text.takeWhile isBlank ++ text.dropWhile isBlank :=
    List.takeWhile_append_dropWhile.symm
  have back : text.dropWhile isBlank = trimmed text ++
      ((text.dropWhile isBlank).reverse.takeWhile isBlank).reverse := by
    rw [trimmed, ← List.reverse_append, List.takeWhile_append_dropWhile, List.reverse_reverse]
  constructor
  · refine ⟨text.takeWhile isBlank, _, ?_, ?_, back ▸ front⟩
    · exact List.all_eq_true.1 List.all_takeWhile
    · simpa using List.all_eq_true.1 (List.all_takeWhile (p := isBlank))
  · intro c member
    refine head_dropWhile text c ?_
    rw [back, List.head?_append, Option.mem_def.1 member]
    rfl
  · intro c member
    refine head_dropWhile (text.dropWhile isBlank).reverse c ?_
    rwa [trimmed, List.getLast?_reverse] at member

/-- A text has one stripped form, the trimmed text. -/
theorem stripped_iff : Stripped text t ↔ t = trimmed text := by
  constructor
  · intro stripped
    exact (trimmed_of_stripped stripped).symm
  · rintro rfl
    exact stripped_trimmed text

theorem trimmed_trimmed (text : List Char) : trimmed (trimmed text) = trimmed text := by
  obtain ⟨-, first, last⟩ := stripped_trimmed text
  exact trimmed_of_stripped ⟨⟨[], [], by simp, by simp, by simp⟩, first, last⟩

theorem isBlank_of_isSpace {c : Char} (space : isSpace c = true) : isBlank c = true := by
  simp only [isSpace, Bool.or_eq_true, beq_iff_eq] at space
  rcases space with ((rfl | rfl) | rfl) | rfl <;> rfl

end MicroBench.Text
