import Mathlib
import FernLang.Proofs.Diagnosis.Underline

/-!
Positions and indices. The indices of a source, its end included, and the columns of its lines, the end
of each included, stand for one another: an index is where its line starts plus its column, and later
indices are in later lines or further on in the same one.
-/

namespace FernLang
namespace Excerpt

variable {source : List Char} {place : Position}

/-- A line of the source and a column of it, or the end of it. -/
def IsPlace (source : List Char) (place : Position) : Prop :=
  ∃ inside : place.line < (lines source).length, place.column ≤ (lines source)[place.line].length

theorem isPlace_iff : IsPlace source place ↔
    ∃ text, Located source (lineStart source place.line + place.column) place text := by
  constructor
  · intro ⟨inside, column⟩
    exact ⟨_, List.getElem?_eq_getElem inside, column, rfl⟩
  · intro ⟨text, line, column, _⟩
    obtain ⟨inside, same⟩ := List.getElem?_eq_some_iff.1 line
    exact ⟨inside, same ▸ column⟩

theorem Located.index_le {index : Nat} {text : List Char} (located : Located source index place text) :
    index ≤ source.length := by
  obtain ⟨front, back, around⟩ := exists_around located.line
  have column := located.column
  rw [← located.index, ← around.start, around.whole, List.length_append, List.length_append]
  omega

theorem position_ok_iff {index : Int} : position source index = .ok place ↔
    IsPlace source place ∧ index = lineStart source place.line + place.column := by
  constructor
  · intro found
    obtain ⟨low, high⟩ := bounds_of_position found
    rw [position_ok low high] at found
    cases found
    obtain ⟨text, located⟩ := @exists_located source index.toNat (by omega)
    have sum := located.index
    exact ⟨isPlace_iff.2 ⟨text, located.line, located.column, rfl⟩, by omega⟩
  · rintro ⟨inside, rfl⟩
    obtain ⟨text, located⟩ := isPlace_iff.1 inside
    have bound := located.index_le
    rw [position_ok (by omega) (by omega), ← Nat.cast_add, Int.toNat_natCast, located.position]

theorem index_lt_of_lex {early late : Position} (first : IsPlace source early)
    (before : toLex (early.line, early.column) < toLex (late.line, late.column)) :
    lineStart source early.line + early.column < lineStart source late.line + late.column := by
  obtain ⟨text, located⟩ := isPlace_iff.1 first
  rcases Prod.Lex.toLex_lt_toLex.1 before with lines | ⟨same, columns⟩
  · have start : lineStart source early.line + text.length < lineStart source late.line :=
      lineStart_lt located.line lines
    have column := located.column
    omega
  · dsimp only at same columns
    rw [same]
    omega

/-- Indices from the start of a source to its end are those that have a position. It is the only place
that adds up to the index, every place is the position of one index, and later indices have later
positions. -/
theorem positions_bijective (source : List Char) :
    (∀ index : Int, (∃ place, position source index = .ok place) ↔ 0 ≤ index ∧ index ≤ source.length) ∧
    (∀ index place, position source index = .ok place →
      ∀ other, IsPlace source other ∧ index = lineStart source other.line + other.column ↔ other = place) ∧
    (∀ place, IsPlace source place → ∃! index, position source index = .ok place) ∧
    ∀ first second early late, position source first = .ok early → position source second = .ok late →
      first < second → toLex (early.line, early.column) < toLex (late.line, late.column) := by
  refine ⟨?_, ?_, ?_, ?_⟩
  · intro index
    constructor
    · intro ⟨place, found⟩
      exact bounds_of_position found
    · intro ⟨low, high⟩
      exact ⟨_, position_ok low high⟩
  · intro index place found other
    rw [← position_ok_iff, found, Except.ok.injEq, eq_comm]
  · intro place inside
    refine ⟨_, position_ok_iff.2 ⟨inside, rfl⟩, ?_⟩
    intro other found
    exact (position_ok_iff.1 found).2
  · intro first second early late one two before
    obtain ⟨_, rfl⟩ := position_ok_iff.1 one
    obtain ⟨inside, rfl⟩ := position_ok_iff.1 two
    by_contra after
    rcases (not_lt.1 after).lt_or_eq with less | same
    · have earlier := index_lt_of_lex inside less
      omega
    · obtain ⟨line, column⟩ := Prod.mk.inj (toLex.injective same)
      rw [line, column] at before
      exact lt_irrefl _ before

end Excerpt
end FernLang
