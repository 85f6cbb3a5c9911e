import Mathlib.Data.List.Basic
import Mathlib.Data.List.Forall2
import Mathlib.Data.List.Perm.Basic
import Mathlib.Data.List.TakeDrop
import Mathlib.Data.List.TakeWhile

set_option autoImplicit false

namespace Lists

theorem split_of_getElem? {A : Type} {list : List A} {position : Nat} {item : A}
    (present : list[position]? = some item) :
    ∃ front behind, list = front ++ item :: behind ∧ front.length = position := by
  obtain ⟨bound, found⟩ := List.getElem?_eq_some_iff.mp present
  refine ⟨list.take position, list.drop (position + 1), ?_, ?_⟩
  · rw [← found, ← List.drop_eq_getElem_cons bound, List.take_append_drop]
  · rw [List.length_take, Nat.min_eq_left (Nat.le_of_lt bound)]

theorem find_eraseP_perm {A : Type} {chosen : A → Bool} {items : List A} {item : A}
    (found : items.find? chosen = some item) : items.Perm (item :: items.eraseP chosen) := by
  induction items with
  | nil => simp at found
  | cons first rest ih =>
    cases here : chosen first with
    | true =>
      obtain rfl : first = item := by simpa [here] using found
      simp [here]
    | false =>
      rw [List.eraseP_cons_of_neg (by simp [here])]
      exact ((ih (by simpa [here] using found)).cons first).trans (List.Perm.swap _ _ _)

theorem span_until {A : Type} {good : A → Bool} {front : List A} (rest : List A)
    (all : ∀ symbol ∈ front, good symbol = true)
    (stops : ∀ symbol ∈ rest.head?, good symbol = false) :
    (front ++ rest).span good = (front, rest) := by
  rw [List.span_eq_takeWhile_dropWhile, List.takeWhile_append_of_pos all,
    List.dropWhile_append_of_pos all]
  cases rest with
  | nil => simp
  | cons symbol rest =>
    have bad := stops symbol rfl
    simp [bad]

theorem modify_absent {Entry : Type} {entries : List Entry} {position : Nat}
    {change : Entry → Entry} (absent : entries[position]? = none) :
    entries.modify position change = entries := by
  rw [List.modify_eq_set_getElem?, absent]
  rfl

theorem modify_present {Entry : Type} {entries : List Entry} {position : Nat} {entry : Entry}
    (change : Entry → Entry) (present : entries[position]? = some entry) :
    entries.modify position change = entries.set position (change entry) := by
  rw [List.modify_eq_set_getElem?, present]
  rfl

theorem mem_modify {Entry : Type} {entries : List Entry} {position : Nat} {change : Entry → Entry}
    {entry : Entry} (member : entry ∈ entries.modify position change) :
    entry ∈ entries ∨ ∃ old, entries[position]? = some old ∧ entry = change old := by
  cases present : entries[position]? with
  | none =>
    rw [modify_absent present] at member
    exact .inl member
  | some old =>
    rw [modify_present change present] at member
    obtain kept | rfl := List.mem_or_eq_of_mem_set member
    · exact .inl kept
    · exact .inr ⟨old, rfl, rfl⟩

theorem forall₂_mem {Entry Entry' : Type} {related : Entry → Entry' → Prop} {before : List Entry}
    {after : List Entry'} (pairs : List.Forall₂ related before after) {entry' : Entry'}
    (member : entry' ∈ after) :
    ∃ entry ∈ before, related entry entry' := by
  induction pairs with
  | nil => cases member
  | cons here later ih =>
    obtain rfl | inside := List.mem_cons.mp member
    · exact ⟨_, List.mem_cons_self, here⟩
    · obtain ⟨entry, old, same⟩ := ih inside
      exact ⟨entry, List.mem_cons_of_mem _ old, same⟩

theorem forall₂_set {Entry : Type} {related : Entry → Entry → Prop}
    (refl : ∀ entry, related entry entry) {entries : List Entry} {id : Nat} {before after : Entry}
    (present : entries[id]? = some before) (here : related before after) :
    List.Forall₂ related entries (entries.set id after) := by
  induction entries generalizing id with
  | nil => simp at present
  | cons first rest ih =>
    cases id with
    | zero =>
      obtain rfl := Option.some.inj present
      exact .cons here (List.forall₂_same.mpr fun other _ => refl other)
    | succ id => exact .cons (refl first) (ih present)

theorem forall₂_split {A B : Type} {related : A → B → Prop} {front behind : List A} {entry : A}
    {entries : List B} (pairs : List.Forall₂ related (front ++ entry :: behind) entries) :
    ∃ front' entry' behind', entries = front' ++ entry' :: behind' ∧
    List.Forall₂ related front front' ∧
      related entry entry' ∧ List.Forall₂ related behind behind' := by
  induction front generalizing entries with
  | nil =>
    obtain ⟨entry', behind', here, later, rfl⟩ := List.forall₂_cons_left_iff.mp pairs
    exact ⟨[], entry', behind', rfl, .nil, here, later⟩
  | cons first rest ih =>
    obtain ⟨first', entries', here, later, rfl⟩ := List.forall₂_cons_left_iff.mp pairs
    obtain ⟨front', entry', behind', rfl, before, middle, after⟩ := ih later
    exact ⟨first' :: front', entry', behind', rfl, .cons here before, middle, after⟩

def updateFirst {A : Type} (chosen : A → Bool) (change : A → A) : List A → List A
  | [] => []
  | first :: rest =>
    if chosen first then change first :: rest else first :: updateFirst chosen change rest

theorem updateFirst_split {A : Type} {chosen : A → Bool} {change : A → A} {before after : List A}
    {item : A} (others : ∀ other ∈ before, chosen other = false) (here : chosen item = true) :
    updateFirst chosen change (before ++ item :: after) = before ++ change item :: after := by
  induction before with
  | nil => rw [List.nil_append, updateFirst, if_pos here, List.nil_append]
  | cons first rest ih =>
    rw [List.cons_append, updateFirst, others first List.mem_cons_self, if_neg Bool.false_ne_true,
      ih fun other member => others other (List.mem_cons_of_mem first member), List.cons_append]

theorem updateFirst_absent {A : Type} {chosen : A → Bool} {change : A → A} {items : List A}
    (absent : ∀ item ∈ items, chosen item = false) : updateFirst chosen change items = items := by
  induction items with
  | nil => rfl
  | cons first rest ih =>
    rw [updateFirst, absent first List.mem_cons_self, if_neg Bool.false_ne_true,
      ih fun other member => absent other (List.mem_cons_of_mem first member)]

theorem map_updateFirst {A B : Type} {view : A → B} {chosen : A → Bool} {chosen' : B → Bool}
    {change : A → A} {change' : B → B} (amounts : ∀ item, chosen' (view item) = chosen item)
    (follows : ∀ item, view (change item) = change' (view item)) (items : List A) :
    (updateFirst chosen change items).map view = updateFirst chosen' change' (items.map view) := by
  induction items with
  | nil => rfl
  | cons first rest ih =>
    rw [updateFirst, List.map_cons, updateFirst, amounts]
    split_ifs
    · rw [List.map_cons, follows]
    · rw [List.map_cons, ih]

theorem map_updateFirst_same {A B : Type} {view : A → B} {chosen : A → Bool} {change : A → A}
    (same : ∀ item, view (change item) = view item) (items : List A) :
    (updateFirst chosen change items).map view = items.map view := by
  induction items with
  | nil => rfl
  | cons first rest ih =>
    rw [updateFirst]
    split_ifs
    · rw [List.map_cons, List.map_cons, same]
    · rw [List.map_cons, List.map_cons, ih]

theorem mem_updateFirst {A : Type} {chosen : A → Bool} {change : A → A} {items : List A} {item : A}
    (member : item ∈ updateFirst chosen change items) : item ∈ items ∨ ∃ before ∈ items,
    item = change before := by
  induction items with
  | nil => cases member
  | cons first rest ih =>
    rw [updateFirst] at member
    split_ifs at member
    · obtain rfl | later := List.mem_cons.mp member
      · exact .inr ⟨first, List.mem_cons_self, rfl⟩
      · exact .inl (List.mem_cons_of_mem first later)
    · obtain rfl | later := List.mem_cons.mp member
      · exact .inl List.mem_cons_self
      · exact (ih later).imp (List.mem_cons_of_mem first) fun ⟨before, old, same⟩ =>
          ⟨before, List.mem_cons_of_mem first old, same⟩

theorem flatMap_single {A B : Type} {entries : List A} {part : A → List B}
    (single : entries.Pairwise fun first second => part first = [] ∨ part second = []) :
    entries.flatMap part = [] ∨ ∃ entry ∈ entries, entries.flatMap part = part entry := by
  induction entries with
  | nil => exact .inl rfl
  | cons first rest ih =>
    obtain ⟨here, later⟩ := List.pairwise_cons.mp single
    rw [List.flatMap_cons]
    by_cases none : part first = []
    · rw [none, List.nil_append]
      exact (ih later).imp_right fun ⟨entry, member, same⟩ =>
        ⟨entry, List.mem_cons_of_mem first member, same⟩
    · have others : rest.flatMap part = [] :=
        List.flatMap_eq_nil_iff.mpr fun other member => (here other member).resolve_left none
      exact .inr ⟨first, List.mem_cons_self, by rw [others, List.append_nil]⟩

section

variable {Id : Type} {first second : List Id} {groups groups' others : List (List Id)}

theorem disjoint_perm (same : groups.Perm groups') :
    groups.Pairwise List.Disjoint ↔ groups'.Pairwise List.Disjoint :=
  same.pairwise_iff List.disjoint_symm

theorem disjoint_shrink (shrinks : List.Forall₂ (fun group group' => group' ⊆ group) groups groups')
    (apart : groups.Pairwise List.Disjoint) : groups'.Pairwise List.Disjoint := by
  induction shrinks with
  | nil => exact .nil
  | @cons group group' rest rest' here later ih =>
    rw [List.pairwise_cons] at apart ⊢
    refine ⟨fun other' member uid mine yours => ?_, ih apart.2⟩
    obtain ⟨other, old, less⟩ := forall₂_mem later member
    exact apart.1 other old (here mine) (less yours)

theorem disjoint_merge {merged : List Id} (inside : merged ⊆ first ++ second)
    (apart : (first :: second :: others).Pairwise List.Disjoint) :
    (merged :: others).Pairwise List.Disjoint := by
  rw [List.pairwise_cons, List.pairwise_cons] at apart
  obtain ⟨front, behind, rest⟩ := apart
  refine List.pairwise_cons.mpr ⟨fun other member uid mine yours => ?_, rest⟩
  obtain one | two := List.mem_append.mp (inside mine)
  · exact front other (List.mem_cons_of_mem second member) one yours
  · exact behind other member two yours

end

end Lists
