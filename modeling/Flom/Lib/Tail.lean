import Mathlib.Data.List.Infix
import Mathlib.Data.List.Nodup

set_option autoImplicit false

namespace Tail

variable {α : Type}

def Tails (tag : List α) (text : Nat → Option α) (position count : Nat) : Prop :=
  count ≤ tag.length ∧ count ≤ position ∧ ∀ index < count,
    text (position - count + index) = tag[index]?

theorem tails_of_suffix {tag stream : List α} {position : Nat} (inside : position ≤ stream.length)
    (suffix : tag <:+ stream.take position) : Tails tag (stream[·]?) position tag.length := by
  obtain ⟨shorter, same⟩ := List.suffix_iff_getElem?.mp suffix
  rw [List.length_take, Nat.min_eq_left inside] at shorter same
  refine ⟨Nat.le_refl _, shorter, fun index below => ?_⟩
  have here := same index below
  rw [List.getElem?_take_of_lt (by omega)] at here
  rw [List.getElem?_eq_getElem below, ← here]
  congr 1
  omega

theorem suffix_of_tails {tag stream : List α} {position : Nat} (inside : position ≤ stream.length)
    (tails : Tails tag (stream[·]?) position tag.length) : tag <:+ stream.take position := by
  obtain ⟨_, shorter, same⟩ := tails
  refine List.suffix_iff_getElem?.mpr ⟨by rw [List.length_take]; omega, fun index below => ?_⟩
  rw [List.length_take, Nat.min_eq_left inside, List.getElem?_take_of_lt (by omega),
    ← List.getElem?_eq_getElem below,
    ← same index below]
  congr 1
  omega

theorem Tails.earlier {tag : List α} {text : Nat → Option α} {final position : Nat}
    (tails : Tails tag text final tag.length) (before : position ≤ final)
    (straddles : final ≤ position + tag.length) :
    Tails tag text position (position + tag.length - final) := by
  obtain ⟨_, shorter, same⟩ := tails
  refine ⟨by omega, by omega, fun index below => ?_⟩
  rw [← same index (by omega)]
  congr 1
  omega

section

variable [DecidableEq α]

def backStep (tag : List α) (text : Nat → Option α) (position count index : Nat) : Nat :=
  if text (position - count - 1) = tag[tag.length - index - 1]? then count + 1 else 0

/-- The loop goes back through the tag and starts again at a mismatch, without looking twice. -/
def matched (tag : List α) (text : Nat → Option α) (position : Nat) : Nat :=
  (List.range tag.length).foldl (backStep tag text position) 0

end

def Back (tag : List α) (text : Nat → Option α) (position index count : Nat) : Prop :=
  count ≤ index ∧ ∀ offset < count, text (position - offset - 1) =
    tag[tag.length - index + count - offset - 1]?

theorem Back.tails {tag : List α} {text : Nat → Option α} {position count : Nat}
    (long : tag.length ≤ position) (back : Back tag text position tag.length count) :
    Tails tag text position count := by
  obtain ⟨short, same⟩ := back
  refine ⟨short, by omega, fun index below => ?_⟩
  have here := same (count - index - 1) (by omega)
  rw [show position - (count - index - 1) - 1 = position - count + index by omega,
    show tag.length - tag.length + count - (count - index - 1) - 1 = index by omega] at here
  exact here

theorem Tails.back {tag : List α} {text : Nat → Option α} {position count : Nat}
    (tails : Tails tag text position count) : Back tag text position tag.length count := by
  obtain ⟨short, inside, same⟩ := tails
  refine ⟨short, fun offset below => ?_⟩
  have here := same (count - offset - 1) (by omega)
  rw [show position - count + (count - offset - 1) = position - offset - 1 by omega] at here
  rw [here]
  congr 1
  omega

variable [DecidableEq α]

-- The count is the longest one: a shorter match would have to begin with the same symbol elsewhere
-- in the tag.
theorem backStep_back {tag : List α} {text : Nat → Option α} {position index count : Nat}
    (distinct : tag.Nodup) (below : index < tag.length) (back : Back tag text position index count)
    (longest : ∀ other, Back tag text position index other → other ≤ count) :
    Back tag text position (index + 1) (backStep tag text position count index) ∧
      ∀ other, Back tag text position (index + 1) other →
      other ≤ backStep tag text position count index := by
  obtain ⟨short, same⟩ := back
  unfold backStep
  split_ifs with hit
  · constructor
    · refine ⟨by omega, fun offset inside => ?_⟩
      by_cases last : offset = count
      · rw [last, hit]
        congr 1
        omega
      · rw [same offset (by omega)]
        congr 1
        omega
    · rintro (_ | other) ⟨room, match_⟩
      · omega
      · have shorter := longest other ⟨by omega, fun offset inside => by
          rw [match_ offset (by omega)]
          congr 1
          omega⟩
        omega
  · refine ⟨⟨by omega, fun offset inside => absurd inside (Nat.not_lt_zero _)⟩, ?_⟩
    rintro (_ | other) ⟨room, match_⟩
    · exact Nat.le_refl _
    · exfalso
      have newest := match_ other (by omega)
      have shorter := longest other ⟨by omega, fun offset inside => by
        rw [match_ offset (by omega)]
        congr 1
        omega⟩
      by_cases same_count : other = count
      · apply hit
        rw [← same_count, newest]
        congr 1
        omega
      · have first := match_ 0 (by omega)
        rw [same 0 (by omega)] at first
        refine absurd ((List.getElem?_inj ?_ distinct).mp first) ?_ <;> omega

theorem matched_back {tag : List α} {text : Nat → Option α} {position : Nat}
    (distinct : tag.Nodup) :
    Back tag text position tag.length (matched tag text position) ∧
      ∀ other, Back tag text position tag.length other → other ≤ matched tag text position := by
  have run : ∀ index ≤ tag.length,
      Back tag text position index ((List.range index).foldl (backStep tag text position) 0) ∧
        ∀ other, Back tag text position index other →
          other ≤ (List.range index).foldl (backStep tag text position) 0 := by
    intro index
    induction index with
    | zero =>
      intro _
      exact ⟨⟨Nat.le_refl _, fun offset inside => absurd inside (Nat.not_lt_zero _)⟩,
        fun other back => back.1⟩
    | succ index ih =>
      intro below
      obtain ⟨back, longest⟩ := ih (by omega)
      rw [List.range_succ, List.foldl_append]
      exact backStep_back distinct (by omega) back longest
  exact run tag.length (Nat.le_refl _)

theorem matched_tails {tag : List α} {text : Nat → Option α} {position : Nat} (distinct : tag.Nodup)
    (long : tag.length ≤ position) : Tails tag text position (matched tag text position) :=
  (matched_back distinct).1.tails long

theorem le_matched {tag : List α} {text : Nat → Option α} {position count : Nat}
    (distinct : tag.Nodup) (tails : Tails tag text position count) :
    count ≤ matched tag text position :=
  (matched_back distinct).2 count tails.back

end Tail
