import Mathlib.Data.List.Basic
import Mathlib.Tactic.SplitIfs

set_option autoImplicit false

namespace Paged

variable {B E : Type}

structure Format (B E : Type) where
  size : E → Nat
  write : E → Nat → List B
  take : List B → Option (E × Nat × List B)

structure Format.Sound (format : Format B E) : Prop where
  positive : ∀ entry, 0 < format.size entry
  length : ∀ entry next, (format.write entry next).length = format.size entry
  whole : ∀ entry next rest, format.take (format.write entry next ++ rest) = some
    (entry, next, rest)
  part : ∀ entry next shown, shown < format.size entry →
    format.take ((format.write entry next).take shown) = none
  empty : format.take [] = none

def Format.add (format : Format B E) (buf : List B) (entry : E) : List B :=
  buf ++ format.write entry (buf.length + format.size entry)

def Format.layout (format : Format B E) : Nat → List E → List B
  | _, [] => []
  | off, entry :: rest =>
    format.write entry (off + format.size entry) ++ format.layout (off + format.size entry) rest

def Format.total (format : Format B E) : List E → Nat
  | [] => 0
  | entry :: rest => format.size entry + format.total rest

def Format.records (format : Format B E) : Nat → List B → List (E × Nat)
  | 0, _ => []
  | fuel + 1, bytes =>
    match format.take bytes with
    | none => []
    | some (entry, next, rest) => (entry, next) :: format.records fuel rest

/-- The next page is asked for from where the last record of this one points to. -/
def Format.readAll (format : Format B E) (fetch : Nat → List B) : Nat → Nat → Option (List E)
  | 0, _ => none
  | fuel + 1, off =>
    let page := format.records (fetch off).length (fetch off)
    match page.getLast? with
    | none => some []
    | some last => (format.readAll fetch fuel last.2).map (page.map Prod.fst ++ ·)

def collect (fetch : Nat → List B) : Nat → Nat → Option (List B)
  | 0, _ => none
  | fuel + 1, off =>
    let page := fetch off
    if page.isEmpty then some [] else (collect fetch fuel (off + page.length)).map (page ++ ·)

section

variable {format : Format B E}

theorem foldl_add (entries : List E) (buf : List B) (sound : format.Sound) :
    entries.foldl format.add buf = buf ++ format.layout buf.length entries := by
  induction entries generalizing buf with
  | nil => simp [Format.layout]
  | cons entry rest ih =>
    rw [List.foldl_cons, ih, Format.add, Format.layout, List.length_append, sound.length,
      List.append_assoc]

theorem total_append (front behind : List E) :
    format.total (front ++ behind) = format.total front + format.total behind := by
  induction front with
  | nil => exact (Nat.zero_add _).symm
  | cons entry rest ih => rw [List.cons_append, Format.total, Format.total, ih, Nat.add_assoc]

theorem layout_append (front behind : List E) (off : Nat) :
    format.layout off (front ++ behind) = format.layout off front ++ format.layout
      (off + format.total front) behind := by
  induction front generalizing off with
  | nil => rfl
  | cons entry rest ih =>
    rw [List.cons_append, Format.layout, Format.layout, ih, List.append_assoc, Format.total,
      Nat.add_assoc]

theorem layout_length (sound : format.Sound) (entries : List E) (off : Nat) :
    (format.layout off entries).length = format.total entries := by
  induction entries generalizing off with
  | nil => rfl
  | cons entry rest ih =>
    rw [Format.layout, List.length_append, sound.length, ih, Format.total]

theorem page_front (sound : format.Sound) (entries : List E) (off size fuel : Nat)
    (enough : ((format.layout off entries).take size).length ≤ fuel) :
    ∃ front behind, entries = front ++ behind ∧
      (format.records fuel ((format.layout off entries).take size)).map Prod.fst = front ∧
      (∀ last ∈ (format.records fuel ((format.layout off entries).take size)).getLast?,
        last.2 = off + format.total front) ∧
      ∀ entry ∈ entries.head?, format.size entry ≤ size → front ≠ [] := by
  induction entries generalizing off size fuel with
  | nil =>
    have none : format.records fuel ((format.layout off []).take size) = [] := by
      rw [Format.layout, List.take_nil]
      cases fuel with
      | zero => rfl
      | succ fuel => rw [Format.records, sound.empty]
    exact ⟨[], [], rfl, by rw [none, List.map_nil], by simp [none], by simp⟩
  | cons entry rest ih =>
    by_cases fits : format.size entry ≤ size
    · have page : (format.layout off (entry :: rest)).take size =
          format.write entry (off + format.size entry) ++
            (format.layout (off + format.size entry) rest).take (size - format.size entry) := by
        rw [Format.layout, List.take_append, sound.length,
          List.take_of_length_le (by rw [sound.length]; exact fits)]
      have positive := sound.positive entry
      rw [page, List.length_append, sound.length] at enough
      obtain ⟨fuel, rfl⟩ : ∃ less, fuel = less + 1 := ⟨fuel - 1, by omega⟩
      obtain ⟨front, behind, split, firsts, last, _⟩ :=
        ih (off + format.size entry) (size - format.size entry) fuel (by omega)
      rw [page, Format.records, sound.whole]
      refine ⟨entry :: front,
        behind, by rw [split, List.cons_append], by rw [List.map_cons, firsts], ?_, by simp⟩
      intro final ends
      rw [List.getLast?_cons] at ends
      cases others : (format.records fuel ((format.layout (off + format.size entry) rest).take
        (size - format.size entry))).getLast? with
      | none =>
        rw [others] at ends
        rw [List.getLast?_eq_none_iff.mp others] at firsts
        subst firsts
        simp only [Option.getD_none, Option.mem_def, Option.some.injEq] at ends
        rw [← ends]
        rfl
      | some later =>
        rw [others] at ends
        simp only [Option.getD_some, Option.mem_def, Option.some.injEq] at ends
        rw [← ends, last later others, Format.total, Nat.add_assoc]
    · have none : format.records fuel ((format.layout off (entry :: rest)).take size) = [] := by
        rw [Format.layout, List.take_append_of_le_length (by rw [sound.length]; omega)]
        cases fuel with
        | zero => rfl
        | succ fuel => rw [Format.records, sound.part _ _ _ (by omega)]
      refine ⟨[], entry :: rest, rfl, by rw [none, List.map_nil], by simp [none], ?_⟩
      intro first here small
      simp only [List.head?_cons, Option.mem_def, Option.some.injEq] at here
      exact absurd (here ▸ small) fits

theorem readAll_rest (sound : format.Sound) {whole : List E} {entries : Nat → List E}
    {fetch sizes : Nat → _} (served : ∀ off,
      fetch off = ((format.layout 0 (entries off)).drop off).take (sizes off))
    (within : ∀ off, entries off <+: whole)
    (grows : ∀ off later, off ≤ later → entries off <+: entries later)
    (fits : ∀ entry ∈ whole, ∀ off, format.size entry ≤ sizes off) {seen : List E}
    (known : seen <+: entries (format.total seen)) {fuel : Nat}
    (enough : whole.length < seen.length + fuel) :
    ∃ rest, format.readAll fetch fuel (format.total seen) = some rest ∧
      seen ++ rest = entries (format.total (seen ++ rest)) := by
  induction fuel generalizing seen with
  | zero => exact absurd (known.trans (within _)).length_le (Nat.not_le.mpr enough)
  | succ fuel ih =>
    obtain ⟨rest, split⟩ := known
    have shown : fetch (format.total seen) =
        (format.layout (format.total seen) rest).take (sizes (format.total seen)) := by
      have behind := @layout_append B E format seen rest 0
      rw [Nat.zero_add, split] at behind
      rw [served, behind, ← layout_length sound seen 0, List.drop_left]
    obtain ⟨front, behind, parts, firsts, last, some⟩ :=
      page_front sound rest (format.total seen) (sizes (format.total seen))
        (fetch (format.total seen)).length (Nat.le_of_eq (by rw [← shown]))
    rw [← shown] at firsts last
    rw [Format.readAll]
    cases ends : (format.records (fetch (format.total seen)).length
        (fetch (format.total seen))).getLast? with
    | none =>
      rw [List.getLast?_eq_none_iff.mp ends, List.map_nil] at firsts
      cases rest with
      | nil => exact ⟨[], rfl, by rw [List.append_nil] at split ⊢; exact split⟩
      | cons entry others =>
        have member : entry ∈ whole :=
          (within (format.total seen)).subset
            (split ▸ List.mem_append_right seen List.mem_cons_self)
        exact absurd firsts.symm (some entry rfl (fits entry member _))
    | some final =>
      have nonempty : 0 < front.length := by
        rw [← firsts, List.length_map]
        exact List.length_pos_of_mem (List.mem_of_getLast? ends)
      have total := @total_append B E format seen front
      have still : seen ++ front <+: entries (format.total (seen ++ front)) := by
        refine .trans ?_ (grows (format.total seen) _ (total ▸ Nat.le_add_right _ _))
        rw [← split, parts, ← List.append_assoc]
        exact List.prefix_append _ behind
      obtain ⟨left, reads, ends'⟩ := ih still (by rw [List.length_append]; omega)
      dsimp only
      rw [last final ends, ← total, reads, firsts]
      exact ⟨front ++ left, rfl, by rw [← List.append_assoc]; exact ends'⟩

theorem readAll_whole (sound : format.Sound) {entries : List E} {fetch sizes : Nat → _}
    (served : ∀ off, fetch off = ((format.layout 0 entries).drop off).take (sizes off))
    (fits : ∀ entry ∈ entries, ∀ off, format.size entry ≤ sizes off) {fuel : Nat}
    (enough : entries.length < fuel) :
    format.readAll fetch fuel 0 = some entries := by
  obtain ⟨rest, reads, same⟩ := @readAll_rest B E format sound entries
    (fun _ => entries) fetch sizes served (fun _ => List.prefix_refl entries)
    (fun _ _ _ => List.prefix_refl entries) fits [] List.nil_prefix fuel (by simpa)
  exact reads.trans (congrArg some same)

end

theorem collect_rest {content : List B} {fetch sizes : Nat → _}
    (served : ∀ off, fetch off = (content.drop off).take (sizes off))
    (positive : ∀ off, 0 < sizes off) {fuel off : Nat} (enough : content.length - off < fuel) :
    collect fetch fuel off = some (content.drop off) := by
  induction fuel generalizing off with
  | zero => exact absurd enough (Nat.not_lt_zero _)
  | succ fuel ih =>
    have size := positive off
    rw [collect]
    split_ifs with ends
    · have stop : content.length ≤ off := by
        rw [List.isEmpty_iff, served, List.take_eq_nil_iff, List.drop_eq_nil_iff] at ends
        omega
      rw [List.drop_eq_nil_of_le stop]
    · have length : (fetch off).length = min (sizes off) (content.length - off) := by
        rw [served, List.length_take, List.length_drop]
      have before : off < content.length := by
        by_contra behind
        rw [List.isEmpty_iff, served, List.drop_eq_nil_of_le (Nat.not_lt.mp behind), List.take_nil]
          at ends
        exact ends rfl
      have parts : fetch off ++ content.drop (off + (fetch off).length) = content.drop off := by
        rw [length, ← List.drop_drop, served]
        obtain less | more := Nat.le_total (sizes off) (content.length - off)
        · rw [Nat.min_eq_left less, List.take_append_drop]
        · have nothing : (content.drop off).drop (content.length - off) = [] := by
            rw [List.drop_drop]
            exact List.drop_eq_nil_of_le (by omega)
          rw [Nat.min_eq_right more, List.take_of_length_le (by rw [List.length_drop]; exact more),
            nothing,
            List.append_nil]
      rw [ih (by omega), Option.map_some, parts]

theorem collect_whole {content : List B} {fetch sizes : Nat → _}
    (served : ∀ off, fetch off = (content.drop off).take (sizes off))
    (positive : ∀ off, 0 < sizes off) {fuel : Nat} (enough : content.length < fuel) :
    collect fetch fuel 0 = some content :=
  collect_rest served positive enough

end Paged
